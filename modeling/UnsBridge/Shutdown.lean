import UnsBridge.Io.RelayIo

/-!
# Graceful shutdown

`RelayIo::shutdown` aborts the pumps, the watcher and the sweep, waits for them, aborts the reply
pumps and waits for them, and then unsubscribes the filters of the engine and the topics that are
still in the correlation map.  `Stopping` is the relay with a shutdown on its way: abortion cuts a
task at whatever await it stands, and the broker call that the task awaits there may have taken
effect or not.

A topic whose entry has left the map is unsubscribed by the task that has removed the entry, and by
nobody else.  If that task is cut in between, the topic stays subscribed.  `Downlink.owed` are the
topics that a task answers for, `Stopping.leaves` those that a step leaves behind, and
`shutdown_unsubscribes` says that a shutdown leaves nothing subscribed in any run in which no step
leaves a topic behind.
-/

namespace UnsBridge

open Transition

variable {Bytes ρ : Type}

/-! ### Cutting a task -/

namespace Downlink

/-- A downlink pump is cut.  If the broker call that it awaits has taken effect, it stands behind
that call. -/
def cutPump (s : Downlink Bytes) (i : ℕ) (effect : Bool) : Downlink Bytes :=
  match s.pumps i with
  | .expiring oldest m t =>
    if effect then (s.unsubscribe oldest .ok).setPump i (.subscribing m t) else s
  | .subscribing m t =>
    if effect then
      ({ s with
        nextSubscription := s.nextSubscription + 1
        subscriptions := s.subscriptions ++ [(s.nextSubscription, t)] }.setPump i
          (.checking m t s.nextSubscription)).record (.subscribed t)
    else s
  | .dropping m t => if effect then (s.unsubscribe t .ok).setPump i (.publishing m) else s
  | _ => s

/-- The sweep is cut. -/
def cutSweeper (s : Downlink Bytes) (effect : Bool) : Downlink Bytes :=
  match s.sweeper with
  | [] => s
  | t :: rest => if effect then { s.unsubscribe t .ok with sweeper := rest } else s

/-- A reply pump is cut. -/
def cutReplyPump (s : Downlink Bytes) (k : ℕ) (effect : Bool) : Downlink Bytes :=
  match s.replyPumps k with
  | .settling t => if effect then (s.unsubscribe t .ok).setReplyPump k .done else s
  | _ => s

/-- Whether a task stands at an await, where abortion can end it.  A pump does not suspend between
its receive and the locked section, nor between its subscribe and the check of the map. -/
def suspended (s : Downlink Bytes) : RelayTask → Bool
  | .downlinkPump i =>
    match s.pumps i with
    | .forwarded _ | .checking _ _ _ => false
    | _ => true
  | .replyPump k =>
    match s.replyPumps k with
    | .received _ _ => false
    | _ => true
  | .uplinkPump _ | .watcher | .sweeper => true

/-- A task is cut.  The uplink tasks subscribe and unsubscribe nothing. -/
def cut (s : Downlink Bytes) (task : RelayTask) (effect : Bool) : Downlink Bytes :=
  match task with
  | .downlinkPump i => s.cutPump i effect
  | .sweeper => s.cutSweeper effect
  | .replyPump k => s.cutReplyPump k effect
  | .uplinkPump _ | .watcher => s

end Downlink

/-! ### A relay with a shutdown on its way -/

/-- The relay, whether its shutdown has been called, and the tasks that have ended since. -/
structure Stopping (Bytes : Type) where
  io : RelayIo Bytes
  called : Bool
  ended : List RelayTask

/-- A step of a relay with a shutdown on its way. -/
inductive StoppingAction (Bytes : Type) where
  /-- A step of the relay or of its environment. -/
  | run (a : RelayIoAction Bytes)
  /-- `RelayIo::shutdown` is called. -/
  | shutdown
  /-- An aborted task ends at the await where it stands. -/
  | cancel (task : RelayTask) (effect : Bool)

/-- What is subscribed on the two brokers. -/
structure BrokerSubscriptions where
  device : List String
  site : List String

namespace Stopping

/-- The tasks that `shutdown` aborts first: the pumps, the watcher and the sweep. -/
def tasks (S : Setup Bytes ρ) : List RelayTask :=
  (List.range S.deviceSubscriptions.length).map .uplinkPump ++
    (List.range S.siteSubscriptions.length).map .downlinkPump ++ [.watcher, .sweeper]

/-- The reply pumps that have been spawned. -/
def replyTasks (s : Stopping Bytes) : List RelayTask :=
  (List.range s.io.down.nextReplyPump).map .replyPump

/-- Whether a task is aborted: the reply pumps are when all other tasks have ended. -/
def aborted (S : Setup Bytes ρ) (s : Stopping Bytes) (task : RelayTask) : Bool :=
  s.called &&
    match task with
    | .replyPump _ => (tasks S).all fun task => task ∈ s.ended
    | _ => true

/-- Whether the task of a step has ended. -/
def hasEnded (s : Stopping Bytes) (a : RelayIoAction Bytes) : Bool :=
  match a.task with
  | some task => task ∈ s.ended
  | none => false

/-- One step. -/
def step [Inhabited ρ] (S : Setup Bytes ρ) (s : Stopping Bytes) :
    StoppingAction Bytes → Option (Stopping Bytes)
  | .run a => if s.hasEnded a then none else (s.io.step S a).map fun io => { s with io }
  | .shutdown => if s.called then none else some { s with called := true }
  | .cancel task effect =>
    if s.aborted S task && task ∉ s.ended && s.io.down.suspended task then
      some { s with
        io := { s.io with down := s.io.down.cut task effect }
        ended := s.ended ++ [task] }
    else none

/-- The relay with its shutdown as a transition system. -/
def system [Inhabited ρ] (S : Setup Bytes ρ) : System (Stopping Bytes) (StoppingAction Bytes) where
  init s := ∃ siteUp, s = { io := .start S siteUp, called := false, ended := [] }
  step s a := s.step S a

/-- All tasks have ended. -/
def AllEnded (S : Setup Bytes ρ) (s : Stopping Bytes) : Prop :=
  ∀ task ∈ tasks S ++ s.replyTasks, task ∈ s.ended

instance (S : Setup Bytes ρ) (s : Stopping Bytes) : Decidable (s.AllEnded S) :=
  inferInstanceAs (Decidable (∀ task ∈ tasks S ++ s.replyTasks, task ∈ s.ended))

/-- What the bridge has subscribed on the two brokers. -/
def subscribed (S : Setup Bytes ρ) (s : Stopping Bytes) : BrokerSubscriptions where
  device := S.deviceSubscriptions.map Subscription.filter ++ s.io.down.subscriptions.map Prod.snd
  site := S.siteSubscriptions.map Subscription.filter

/-- A loop of unsubscribes, all of which succeed. -/
def unsubscribeAll (topics subscribed : List String) : List String :=
  topics.foldl (fun subscribed topic => subscribed.filter fun t => t ≠ topic) subscribed

/-- The end of `shutdown`, when all tasks have ended: the filters of the engine and the topics that
are drained from the correlation map are unsubscribed. -/
def finish (S : Setup Bytes ρ) (s : Stopping Bytes) : BrokerSubscriptions where
  device := unsubscribeAll s.io.down.correlator.drain.1
    (unsubscribeAll (S.engine.uplinkSubscriptions.map Prod.snd) (s.subscribed S).device)
  site := unsubscribeAll S.engine.downlinkFilters (s.subscribed S).site

/-! ### What shutdown unsubscribes -/

/-- A loop of unsubscribes leaves what is not in its list. -/
theorem mem_unsubscribeAll {topics subscribed : List String} {t : String} :
    t ∈ unsubscribeAll topics subscribed ↔ t ∈ subscribed ∧ t ∉ topics := by
  unfold unsubscribeAll
  induction topics generalizing subscribed with
  | nil => simp
  | cons topic topics ih =>
    rw [List.foldl_cons, ih, List.mem_filter, List.mem_cons]
    simp [not_or, and_assoc]

/-- When shutdown returns, nothing of the bridge is subscribed any more: no filter of the engine on
either broker, and no reply topic on the device bus. -/
def LeavesNothing (S : Setup Bytes ρ) (s : Stopping Bytes) : Prop :=
  (s.finish S).device = [] ∧ (s.finish S).site = []

/-- Shutdown unsubscribes a topic on the device bus if it has an entry in the correlation map.  (The
other case is a mint that is a filter of the engine.) -/
def Covers (S : Setup Bytes ρ) (s : Stopping Bytes) (t : String) : Prop :=
  t ∈ s.io.down.correlator.topics ∨ t ∈ S.engine.uplinkFilters.map Prod.snd

variable {S : Setup Bytes ρ} {s : Stopping Bytes}

/-- Shutdown unsubscribes the filters of the engine and what is in the map, and nothing else. -/
theorem leavesNothing_iff :
    s.LeavesNothing S ↔ ∀ t ∈ s.io.down.subscriptions.map Prod.snd, s.Covers S t := by
  have hsite : (s.finish S).site = [] := by
    refine List.eq_nil_iff_forall_not_mem.mpr fun t ht => ?_
    obtain ⟨hsub, hnot⟩ := mem_unsubscribeAll.mp ht
    rw [subscribed, Setup.map_filter_siteSubscriptions] at hsub
    exact hnot hsub
  have hdevice : ∀ t, t ∈ (s.finish S).device ↔
      t ∈ s.io.down.subscriptions.map Prod.snd ∧ ¬ s.Covers S t := by
    intro t
    simp only [finish, mem_unsubscribeAll, subscribed, Setup.map_filter_deviceSubscriptions,
      List.mem_append, Covers, not_or]
    constructor
    · rintro ⟨⟨hsub, hfilter⟩, hentry⟩
      exact ⟨hsub.resolve_left hfilter, hentry, hfilter⟩
    · rintro ⟨hsub, hentry, hfilter⟩
      exact ⟨⟨Or.inr hsub, hfilter⟩, hentry⟩
  unfold LeavesNothing
  rw [and_iff_left hsite, List.eq_nil_iff_forall_not_mem]
  simp only [hdevice, not_and, not_not]

end Stopping

/-! ### Who answers for a topic -/

namespace Downlink

/-- The topics that a task answers for: it is about to check or to unsubscribe them. -/
def owed (s : Downlink Bytes) : RelayTask → List String
  | .downlinkPump i =>
    match s.pumps i with
    | .expiring oldest _ _ => [oldest]
    | .checking _ t _ | .dropping _ t => [t]
    | _ => []
  | .sweeper => s.sweeper
  | .replyPump k =>
    match s.replyPumps k with
    | .publishing t | .settling t => [t]
    | _ => []
  | .uplinkPump _ | .watcher => []

/-- Those of some topics that are subscribed and have no entry in the map. -/
def orphans (s : Downlink Bytes) (topics : List String) : List String :=
  topics.filter fun t => t ∈ s.subscriptions.map Prod.snd ∧ t ∉ s.correlator.topics

/-- The topics that a step leaves behind, subscribed and without an entry: an unsubscribe has no
effect, a subscribe is reported as failed while its topic is subscribed, or an entry is evicted for
a command whose deadline overflows. -/
def leaves (s : Downlink Bytes) : DownlinkAction Bytes → List String
  | .expired i outcome | .dropped i outcome =>
    if outcome.effect then [] else s.orphans (s.owed (.downlinkPump i))
  | .swept outcome => if outcome.effect then [] else s.orphans (s.sweeper.take 1)
  | .replySettled k outcome => if outcome.effect then [] else s.orphans (s.owed (.replyPump k))
  | .subscribed i (.failed effect) =>
    match s.pumps i with
    | .subscribing _ t => if effect ∨ t ∈ s.subscriptions.map Prod.snd then [t] else []
    | _ => []
  | .rewriteDownlink _ _ now =>
    match Instant.checkedAdd now s.correlator.ttl with
    | none => s.correlator.evictOldest.1.toList.filter fun t => t ∈ s.subscriptions.map Prod.snd
    | some _ => []
  | _ => []

/-- The topics that a task leaves behind where it is cut: what it answers for, unless the
unsubscribe that it awaits there has taken effect, and what it has just subscribed, unless it has
its entry. -/
def leavesCut (s : Downlink Bytes) (task : RelayTask) (effect : Bool) : List String :=
  match task with
  | .downlinkPump i =>
    match s.pumps i with
    | .subscribing _ t => if effect ∧ t ∉ s.correlator.topics then [t] else []
    | _ => if effect then [] else s.orphans (s.owed task)
  | .sweeper => s.orphans (if effect then s.sweeper.tail else s.sweeper)
  | .replyPump k =>
    match s.replyPumps k with
    | .settling t => if effect then [] else s.orphans [t]
    | _ => s.orphans (s.owed task)
  | .uplinkPump _ | .watcher => []

variable {s s' : Downlink Bytes}

/-- A topic that is subscribed and has no entry is an orphan. -/
theorem mem_orphans {topics : List String} {t : String} :
    t ∈ s.orphans topics ↔
      t ∈ topics ∧ t ∈ s.subscriptions.map Prod.snd ∧ t ∉ s.correlator.topics := by
  simp [orphans]

/-- After an unsubscribe a topic is subscribed only if the unsubscribe had no effect or was one of
another topic. -/
theorem subscribed_of_unsubscribe {topic t : String} {outcome : SubOutcome}
    (h : t ∈ (s.unsubscribe topic outcome).subscriptions.map Prod.snd) :
    t ∈ s.subscriptions.map Prod.snd ∧ (outcome.effect = true → t ≠ topic) := by
  unfold unsubscribe at h
  cases heffect : outcome.effect with
  | false => simpa [heffect] using h
  | true =>
    simp only [heffect, if_true, List.mem_map, List.mem_filter, decide_eq_true_eq] at h
    obtain ⟨p, ⟨hp, hne⟩, rfl⟩ := h
    exact ⟨List.mem_map.mpr ⟨p, hp, rfl⟩, fun _ => hne⟩

/-- A pump that goes on leaves alone what the other tasks answer for. -/
theorem owed_of_pumps {i : ℕ} {phase : DownlinkPhase Bytes} {task : RelayTask}
    (hne : task ≠ .downlinkPump i) (hpumps : s'.pumps = Function.update s.pumps i phase)
    (hsweeper : s'.sweeper = s.sweeper) (hreply : s'.replyPumps = s.replyPumps) :
    s'.owed task = s.owed task := by
  cases task with
  | downlinkPump j =>
    have hji : j ≠ i := fun heq => hne (heq ▸ rfl)
    simp only [owed, hpumps, Function.update_of_ne hji]
  | sweeper => exact hsweeper
  | replyPump k => simp only [owed, hreply]
  | _ => rfl

/-- So does a reply pump. -/
theorem owed_of_replyPumps {k : ℕ} {phase : ReplyPhase Bytes} {task : RelayTask}
    (hne : task ≠ .replyPump k) (hreply : s'.replyPumps = Function.update s.replyPumps k phase)
    (hsweeper : s'.sweeper = s.sweeper) (hpumps : s'.pumps = s.pumps) :
    s'.owed task = s.owed task := by
  cases task with
  | downlinkPump j => simp only [owed, hpumps]
  | sweeper => exact hsweeper
  | replyPump j =>
    have hjk : j ≠ k := fun heq => hne (heq ▸ rfl)
    simp only [owed, hreply, Function.update_of_ne hjk]
  | _ => rfl

/-- So does the sweep. -/
theorem owed_of_sweeper {task : RelayTask} (hne : task ≠ .sweeper) (hpumps : s'.pumps = s.pumps)
    (hreply : s'.replyPumps = s.replyPumps) : s'.owed task = s.owed task := by
  cases task with
  | downlinkPump j => simp only [owed, hpumps]
  | sweeper => exact absurd rfl hne
  | replyPump j => simp only [owed, hreply]
  | _ => rfl

variable [Inhabited ρ] {S : Setup Bytes ρ} {a : DownlinkAction Bytes} {bumps : List Bump}

/-- A step leaves alone what the other tasks answer for. -/
theorem Move.owed_of_ne (hmove : Move S s a s' bumps)
    (habsent : s.replyPumps s.nextReplyPump = .absent) {task : RelayTask}
    (hne : a.task ≠ some task) : s'.owed task = s.owed task := by
  have hne : ∀ task', a.task = some task' → task ≠ task' := by
    rintro task' htask rfl
    exact hne htask
  cases hmove with
  | publish | refuse | reply => cases task <;> rfl
  | forward i | pass i | malformed i | record i | replace i | panic i | expired i | subscribe i
  | abandon i | undo i | dropped i | settle i =>
    exact owed_of_pumps (hne _ rfl) rfl rfl rfl
  | spawn i m t k hpump hlive =>
    refine Eq.trans (b := (s.setReplyPump s.nextReplyPump (.waiting t k)).owed task)
      (owed_of_pumps (hne _ rfl) rfl rfl rfl) ?_
    by_cases hnew : task = .replyPump s.nextReplyPump
    · subst hnew
      simp [owed, setReplyPump, habsent]
    · exact owed_of_replyPumps hnew rfl rfl rfl
  | sweep | swept => exact owed_of_sweeper (hne _ rfl) rfl rfl
  | arrive k | close k | stray k | relay k | discard k | relayed k | settled k =>
    exact owed_of_replyPumps (hne _ rfl) rfl rfl rfl

/-- After a step, a topic that is subscribed and has no entry is left behind by the step, or the
task of the step answers for it, or it was subscribed and had no entry before and the task of the
step did not answer for it. -/
theorem Move.answered (hmove : Move S s a s' bumps) {t : String}
    (ht : t ∈ s'.subscriptions.map Prod.snd) (hgone : t ∉ s'.correlator.topics) :
    t ∈ s.leaves a ∨ (∃ task, a.task = some task ∧ t ∈ s'.owed task) ∨
      t ∈ s.subscriptions.map Prod.snd ∧ t ∉ s.correlator.topics ∧
        ∀ task, a.task = some task → t ∉ s.owed task := by
  -- most steps neither subscribe nor unsubscribe, nor do they remove an entry
  have hquiet : ∀ {task}, a.task = some task → t ∈ s.subscriptions.map Prod.snd →
      t ∉ s.correlator.topics → (t ∈ s.owed task → t ∈ s'.owed task) →
      t ∈ s.leaves a ∨ (∃ task, a.task = some task ∧ t ∈ s'.owed task) ∨
        t ∈ s.subscriptions.map Prod.snd ∧ t ∉ s.correlator.topics ∧
          ∀ task, a.task = some task → t ∉ s.owed task := by
    intro task htask hsub hnot howed
    by_cases hmem : t ∈ s.owed task
    · exact Or.inr (Or.inl ⟨task, htask, howed hmem⟩)
    · refine Or.inr (Or.inr ⟨hsub, hnot, fun task' htask' => ?_⟩)
      rw [htask, Option.some.injEq] at htask'
      exact htask' ▸ hmem
  -- the unsubscribe of the only topic that a task answers for
  have hreturn : ∀ {task topic} {outcome : SubOutcome}, a.task = some task →
      s.owed task = [topic] →
      s.leaves a = (if outcome.effect then [] else s.orphans (s.owed task)) →
      t ∈ (s.unsubscribe topic outcome).subscriptions.map Prod.snd → t ∉ s.correlator.topics →
      t ∈ s.leaves a ∨ (∃ task, a.task = some task ∧ t ∈ s'.owed task) ∨
        t ∈ s.subscriptions.map Prod.snd ∧ t ∉ s.correlator.topics ∧
          ∀ task, a.task = some task → t ∉ s.owed task := by
    intro task topic outcome htask howed hleaves ht hnot
    obtain ⟨hsub, hne⟩ := subscribed_of_unsubscribe ht
    cases heffect : outcome.effect with
    | true => exact hquiet htask hsub hnot (by simp [howed, hne heffect])
    | false =>
      by_cases hsame : t = topic
      · refine Or.inl ?_
        simp only [hleaves, heffect, Bool.false_eq_true, if_false, mem_orphans]
        exact ⟨by simp [howed, hsame], hsub, hnot⟩
      · exact hquiet htask hsub hnot (by simp [howed, hsame])
  cases hmove with
  | publish | reply => exact Or.inr (Or.inr ⟨ht, hgone, by simp [DownlinkAction.task]⟩)
  | refuse i c bus reason hpump | forward i c bus bytes hpump
  | pass i mint now m msg hpump | malformed i mint now m hpump | settle i outcome m b hpump =>
    exact hquiet rfl ht hgone (by simp [owed, hpump])
  | record i mint now m msg site bytes hpump =>
    refine hquiet rfl ht (fun hmem => hgone ?_) (by simp [owed, hpump])
    simp only [Downlink.record, setPump, setPending, ReplyCorrelator.topics, List.map_append]
    exact List.mem_append_left _ hmem
  | replace i mint now m msg site bytes oldest p rest hpump hdecode hreply hencode hpending =>
    by_cases hold : t = oldest
    · refine Or.inr (Or.inl ⟨_, rfl, ?_⟩)
      simp [owed, setPump, hold]
    · refine hquiet rfl ht (fun hmem => hgone ?_) (by simp [owed, hpump])
      simp only [ReplyCorrelator.topics, hpending, List.map_cons, List.mem_cons, hold,
        false_or] at hmem
      simp only [Downlink.record, setPump, setPending, ReplyCorrelator.topics, List.map_append]
      exact List.mem_append_left _ hmem
  | panic i mint now m pending hpump hoverflow hpending =>
    subst hpending
    by_cases hold : s.correlator.evictOldest.1 = some t
    · have hsub : t ∈ s.subscriptions.map Prod.snd := ht
      refine Or.inl ?_
      simpa [leaves, hoverflow, hold] using hsub
    · refine hquiet rfl ht (fun hmem => hgone ?_) (by simp [owed, hpump])
      rcases s.correlator.evictOldest_cases with ⟨-, hev⟩ | ⟨oldest, p, rest, -, hpending, hev⟩
      · simpa only [setPump, setPending, ReplyCorrelator.topics, hev] using hmem
      · have hne : t ≠ oldest := fun heq => hold (by rw [hev, heq])
        simpa [setPump, setPending, ReplyCorrelator.topics, hev, hpending, hne] using hmem
  | expired i outcome oldest m t' hpump =>
    exact hreturn rfl (by simp [owed, hpump]) rfl ht hgone
  | subscribe i m t' hpump =>
    by_cases hsame : t = t'
    · refine Or.inr (Or.inl ⟨_, rfl, ?_⟩)
      simp [owed, Downlink.record, setPump, hsame]
    · have hsub : t ∈ s.subscriptions.map Prod.snd := by
        simpa [Downlink.record, setPump, hsame] using ht
      exact hquiet rfl hsub hgone (by simp [owed, hpump])
  | abandon i effect m t' hpump =>
    by_cases hsame : t = t'
    · refine Or.inl ?_
      subst hsame
      simp only [leaves, hpump]
      cases effect with
      | true => simp
      | false =>
        have hsub : t ∈ s.subscriptions.map Prod.snd := ht
        simp [hsub]
    · have hsub : t ∈ s.subscriptions.map Prod.snd := by
        cases effect with
        | true => simpa [setPump, hsame] using ht
        | false => exact ht
      refine hquiet rfl hsub (fun hmem => hgone ?_) (by simp [owed, hpump])
      simpa [setPump, ReplyCorrelator.topics, ReplyCorrelator.abandon, hsame] using hmem
  | spawn i m t' k hpump hlive =>
    refine hquiet rfl ht hgone fun hmem => ?_
    obtain rfl : t = t' := by simpa [owed, hpump] using hmem
    exact absurd hlive hgone
  | undo i m t' k hpump =>
    exact hquiet rfl ht hgone (by simp [owed, hpump, setPump])
  | dropped i outcome m t' hpump =>
    exact hreturn rfl (by simp [owed, hpump]) rfl ht hgone
  | sweep now hidle =>
    by_cases hswept : t ∈ (s.correlator.sweep now).1
    · exact Or.inr (Or.inl ⟨_, rfl, hswept⟩)
    · refine hquiet rfl ht (fun hmem => ?_) (by simp [owed, hidle])
      rw [s.correlator.sweep_append now, List.mem_append] at hmem
      exact hmem.elim hswept hgone
  | swept outcome t' rest hsweeper =>
    have hkept : t ∈ (s.unsubscribe t' outcome).subscriptions.map Prod.snd := ht
    obtain ⟨hsub, hne⟩ := subscribed_of_unsubscribe hkept
    by_cases hold : t = t'
    · refine Or.inl ?_
      have heffect : outcome.effect = false := by
        cases heffect : outcome.effect with
        | true => exact absurd hold (hne heffect)
        | false => rfl
      simp only [leaves, heffect, Bool.false_eq_true, if_false, mem_orphans]
      exact ⟨by simp [hsweeper, hold], hsub, hgone⟩
    · exact hquiet rfl hsub hgone (by simp [owed, hsweeper, hold])
  | arrive k t' subscription payload inbox hphase | close k t' subscription hphase
  | stray k t' payload hphase =>
    exact hquiet rfl ht hgone (by simp [owed, hphase])
  | relay k t' payload bytes p before after hphase hpending
  | discard k t' payload reason p before after hphase hpending =>
    by_cases hsame : t = t'
    · refine Or.inr (Or.inl ⟨_, rfl, ?_⟩)
      simp [owed, Downlink.record, setReplyPump, hsame]
    · refine hquiet rfl ht (fun hmem => hgone ?_) (by simp [owed, hphase])
      simpa [Downlink.record, setReplyPump, setPending, ReplyCorrelator.topics, hpending,
        hsame] using hmem
  | relayed k outcome t' b hphase =>
    exact hquiet rfl ht hgone (by simp [owed, hphase, setReplyPump])
  | settled k outcome t' hphase =>
    exact hreturn rfl (by simp [owed, hphase]) rfl ht hgone

/-! ### Cut tasks -/

/-- What cutting a task of the downlink does: nothing, or what the return of the call does that the
task awaits.  A command whose topic was to be unsubscribed first is not published, though. -/
theorem cut_cases (S : Setup Bytes ρ) (s : Downlink Bytes) (task : RelayTask) (effect : Bool) :
    s.cut task effect = s ∨ (∃ a bumps, s.step S a = some (s.cut task effect, bumps)) ∨
      ∃ i m t, s.pumps i = .dropping m t ∧
        s.cut task effect = (s.unsubscribe t .ok).setPump i (.publishing m) := by
  cases effect with
  | false =>
    refine Or.inl ?_
    cases task with
    | downlinkPump i => cases hpump : s.pumps i <;> simp [cut, cutPump, hpump]
    | sweeper => cases hsweeper : s.sweeper <;> simp [cut, cutSweeper, hsweeper]
    | replyPump k => cases hphase : s.replyPumps k <;> simp [cut, cutReplyPump, hphase]
    | _ => rfl
  | true =>
    cases task with
    | downlinkPump i =>
      simp only [cut, cutPump]
      cases hpump : s.pumps i with
      | expiring oldest m t =>
        exact Or.inr (Or.inl ⟨.expired i .ok, [], by simp [step, expired, hpump]⟩)
      | subscribing m t =>
        exact Or.inr (Or.inl ⟨.subscribed i .ok, [], by simp [step, subscribed, hpump,
          SubOutcome.effect]⟩)
      | dropping m t => exact Or.inr (Or.inr ⟨i, m, t, hpump, rfl⟩)
      | _ => exact Or.inl rfl
    | sweeper =>
      simp only [cut, cutSweeper]
      cases hsweeper : s.sweeper with
      | nil => exact Or.inl rfl
      | cons t rest =>
        exact Or.inr (Or.inl ⟨.swept .ok, countExpiry rest, by simp [step, swept, hsweeper]⟩)
    | replyPump k =>
      simp only [cut, cutReplyPump]
      cases hphase : s.replyPumps k with
      | settling t =>
        exact Or.inr (Or.inl ⟨.replySettled k .ok, [], by simp [step, replySettled, hphase]⟩)
      | _ => exact Or.inl rfl
    | _ => exact Or.inl rfl

omit [Inhabited ρ] in
/-- What has been tracked stays tracked where a pump gives up what it has yet to do. -/
theorem Tracks.giveUp {event : DownlinkEvent Bytes → Option (Copy Bytes)}
    {todo : DownlinkPhase Bytes → List (Copy Bytes)} (h : s.Tracks event todo) {i : ℕ}
    {phase : DownlinkPhase Bytes} (hphase : todo phase = []) :
    (s.setPump i phase).Tracks event todo := by
  refine ⟨fun j c hc => ?_, fun j => ?_⟩
  · by_cases hji : j = i
    · subst hji
      simp [setPump, hphase] at hc
    · simp only [setPump, Function.update_of_ne hji] at hc
      exact h.subscription j c hc
  · by_cases hji : j = i
    · subst hji
      simp only [setPump, Function.update_self, hphase, List.append_nil]
      exact (List.sublist_append_left _ _).trans (h.sublist j)
    · simp only [setPump, Function.update_of_ne hji]
      exact h.sublist j

omit [Inhabited ρ] in
/-- The books stay right where the unsubscribe of a pump is cut. -/
theorem Books.giveUp (h : s.Books S) {i : ℕ} {m : Command Bytes} {t : String}
    (hpump : s.pumps i = .dropping m t) :
    ((s.unsubscribe t .ok).setPump i (.publishing m)).Books S := by
  have hi : i < S.siteSubscriptions.length := by
    by_contra hle
    rw [h.idle i (Nat.le_of_not_lt hle)] at hpump
    cases hpump
  have hcommanded : (s.unsubscribe t .ok).Tracks DownlinkEvent.commandedCopy
      DownlinkPhase.unpublished := ⟨h.commanded.subscription, h.commanded.sublist⟩
  have hrecorded : (s.unsubscribe t .ok).Tracks DownlinkEvent.recordedCopy
      DownlinkPhase.unrecorded := ⟨h.recorded.subscription, h.recorded.sublist⟩
  refine ⟨h.bus, hcommanded.giveUp rfl, hrecorded.giveUp rfl, fun j hj => ?_, h.absent⟩
  have hne : j ≠ i := by omega
  exact (Function.update_of_ne hne _ _).trans (h.idle j hj)

/-- The books stay right where a task is cut. -/
theorem Books.cut (h : s.Books S) (task : RelayTask) (effect : Bool) :
    (s.cut task effect).Books S := by
  rcases cut_cases S s task effect with hcut | ⟨a, bumps, hstep⟩ | ⟨i, m, t, hpump, hcut⟩
  · rw [hcut]
    exact h
  · exact h.move (step_move hstep)
  · rw [hcut]
    exact h.giveUp hpump

/-- What a cut leaves as it was: the map, the number of reply pumps and the other tasks. -/
structure CutFrame (s s' : Downlink Bytes) (task : RelayTask) : Prop where
  correlator : s'.correlator = s.correlator
  next : s'.nextReplyPump = s.nextReplyPump
  pumps : ∀ i, task ≠ .downlinkPump i → s'.pumps i = s.pumps i
  sweeper : task ≠ .sweeper → s'.sweeper = s.sweeper
  replyPumps : ∀ k, task ≠ .replyPump k → s'.replyPumps k = s.replyPumps k

omit [Inhabited ρ] in
/-- Cutting a task does no more than that. -/
theorem cut_frame (s : Downlink Bytes) (task : RelayTask) (effect : Bool) :
    CutFrame s (s.cut task effect) task := by
  have hsame : CutFrame s s task :=
    ⟨rfl, rfl, fun _ _ => rfl, fun _ => rfl, fun _ _ => rfl⟩
  have hother : ∀ {i j : ℕ}, RelayTask.downlinkPump i ≠ .downlinkPump j → j ≠ i :=
    fun hne heq => hne (heq ▸ rfl)
  cases task with
  | uplinkPump i | watcher => exact hsame
  | downlinkPump i =>
    have hpump : ∀ t phase, CutFrame s ((s.unsubscribe t .ok).setPump i phase) (.downlinkPump i) :=
      fun t phase => ⟨rfl, rfl, fun j hne => Function.update_of_ne (hother hne) _ _, fun _ => rfl,
        fun _ _ => rfl⟩
    simp only [cut, cutPump]
    split
    · split
      · exact hpump _ _
      · exact hsame
    · split
      · exact ⟨rfl, rfl, fun j hne => Function.update_of_ne (hother hne) _ _, fun _ => rfl,
          fun _ _ => rfl⟩
      · exact hsame
    · split
      · exact hpump _ _
      · exact hsame
    · exact hsame
  | sweeper =>
    simp only [cut, cutSweeper]
    split
    · exact hsame
    · split
      · exact ⟨rfl, rfl, fun _ _ => rfl, fun hne => absurd rfl hne, fun _ _ => rfl⟩
      · exact hsame
  | replyPump k =>
    simp only [cut, cutReplyPump]
    split
    · split
      · refine ⟨rfl, rfl, fun _ _ => rfl, fun _ => rfl, fun j hne => ?_⟩
        have hjk : j ≠ k := fun heq => hne (heq ▸ rfl)
        exact Function.update_of_ne hjk _ _
      · exact hsame
    · exact hsame

omit [Inhabited ρ] in
/-- The other tasks answer for what they have answered for before. -/
theorem CutFrame.owed {task other : RelayTask} (h : CutFrame s s' task) (hne : other ≠ task) :
    s'.owed other = s.owed other := by
  cases other with
  | downlinkPump i => simp only [Downlink.owed, h.pumps i hne.symm]
  | sweeper => exact h.sweeper hne.symm
  | replyPump k => simp only [Downlink.owed, h.replyPumps k hne.symm]
  | uplinkPump i | watcher => rfl

omit [Inhabited ρ] in
/-- Where a task has been cut, a topic that is subscribed and has no entry is left behind by it, or
was subscribed before and the task did not answer for it. -/
theorem cut_answered {task : RelayTask} {effect : Bool} (hsuspended : s.suspended task = true)
    {t : String} (ht : t ∈ (s.cut task effect).subscriptions.map Prod.snd)
    (hgone : t ∉ s.correlator.topics) :
    t ∈ s.leavesCut task effect ∨ t ∈ s.subscriptions.map Prod.snd ∧ t ∉ s.owed task := by
  have hleft : t ∈ s.subscriptions.map Prod.snd →
      s.leavesCut task effect = s.orphans (s.owed task) →
      t ∈ s.leavesCut task effect ∨ t ∈ s.subscriptions.map Prod.snd ∧ t ∉ s.owed task := by
    intro hsub hleaves
    by_cases hmem : t ∈ s.owed task
    · exact Or.inl (hleaves ▸ mem_orphans.mpr ⟨hmem, hsub, hgone⟩)
    · exact Or.inr ⟨hsub, hmem⟩
  have hreleased : ∀ topic, s.owed task = [topic] →
      t ∈ (s.unsubscribe topic .ok).subscriptions.map Prod.snd →
      t ∈ s.leavesCut task effect ∨ t ∈ s.subscriptions.map Prod.snd ∧ t ∉ s.owed task := by
    intro topic howed hkept
    obtain ⟨hsub, hne⟩ := subscribed_of_unsubscribe hkept
    exact Or.inr ⟨hsub, by simp [howed, hne rfl]⟩
  cases task with
  | uplinkPump i | watcher => exact Or.inr ⟨ht, List.not_mem_nil⟩
  | downlinkPump i =>
    simp only [cut, cutPump] at ht
    cases hpump : s.pumps i with
    | checking m t' k => simp [suspended, hpump] at hsuspended
    | idle | forwarded m | publishing m | dead =>
      simp only [hpump] at ht
      exact Or.inr ⟨ht, by simp [owed, hpump]⟩
    | subscribing m t' =>
      simp only [hpump] at ht
      by_cases hnew : effect = true ∧ t = t'
      · obtain ⟨rfl, rfl⟩ := hnew
        exact Or.inl (by simp [leavesCut, hpump, hgone])
      · refine Or.inr ⟨?_, by simp [owed, hpump]⟩
        cases effect with
        | false => exact ht
        | true =>
          have hne : t ≠ t' := fun heq => hnew ⟨rfl, heq⟩
          simpa [Downlink.record, setPump, hne] using ht
    | expiring oldest m t' =>
      simp only [hpump] at ht
      cases effect with
      | true => exact hreleased oldest (by simp [owed, hpump]) ht
      | false => exact hleft ht (by simp [leavesCut, hpump])
    | dropping m t' =>
      simp only [hpump] at ht
      cases effect with
      | true => exact hreleased t' (by simp [owed, hpump]) ht
      | false => exact hleft ht (by simp [leavesCut, hpump])
  | sweeper =>
    simp only [cut, cutSweeper] at ht
    cases hsweeper : s.sweeper with
    | nil =>
      simp only [hsweeper] at ht
      exact Or.inr ⟨ht, by simp [owed, hsweeper]⟩
    | cons t' rest =>
      simp only [hsweeper] at ht
      cases effect with
      | true =>
        have hkept : t ∈ (s.unsubscribe t' .ok).subscriptions.map Prod.snd := ht
        obtain ⟨hsub, hne⟩ := subscribed_of_unsubscribe hkept
        by_cases hmem : t ∈ rest
        · refine Or.inl ?_
          simpa [leavesCut, hsweeper] using mem_orphans.mpr ⟨hmem, hsub, hgone⟩
        · exact Or.inr ⟨hsub, by simp [owed, hsweeper, hne rfl, hmem]⟩
      | false => exact hleft ht (by simp [leavesCut, owed])
  | replyPump k =>
    simp only [cut, cutReplyPump] at ht
    cases hphase : s.replyPumps k with
    | settling t' =>
      simp only [hphase] at ht
      cases effect with
      | true => exact hreleased t' (by simp [owed, hphase]) ht
      | false => exact hleft ht (by simp [leavesCut, owed, hphase])
    | _ =>
      simp only [hphase] at ht
      exact hleft ht (by simp [leavesCut, hphase])

end Downlink

/-! ### What a guarded run leaves behind -/

/-- The task that takes a step, or that is cut there. -/
def StoppingAction.task : StoppingAction Bytes → Option RelayTask
  | .run a => a.task
  | .shutdown => none
  | .cancel task _ => some task

namespace Stopping

/-- The topics that the task of a step leaves behind, subscribed and without an entry. -/
def leaves (s : Stopping Bytes) : StoppingAction Bytes → List String
  | .run (.down a) => s.io.down.leaves a
  | .cancel task effect => s.io.down.leavesCut task effect
  | .run (.up _) | .shutdown => []

/-- The guard on the steps of a run: if the task of a step leaves a topic behind, another task that
has not ended answers for it. -/
def Orderly (s : Stopping Bytes) (a : StoppingAction Bytes) : Prop :=
  ∀ t ∈ s.leaves a, ∃ task ∉ s.ended, a.task ≠ some task ∧ t ∈ s.io.down.owed task

/-- Every reply topic that is subscribed has its entry, or a task that has not ended answers for
it. -/
structure Answered (S : Setup Bytes ρ) (s : Stopping Bytes) : Prop where
  books : s.io.down.Books S
  answered : ∀ t ∈ s.io.down.subscriptions.map Prod.snd,
    t ∈ s.io.down.correlator.topics ∨ ∃ task ∉ s.ended, t ∈ s.io.down.owed task

variable [Inhabited ρ] {S : Setup Bytes ρ} {s s' : Stopping Bytes}

/-- A guarded step of a task of the downlink keeps that. -/
theorem Answered.run (h : s.Answered S) {b : DownlinkAction Bytes} {io : RelayIo Bytes}
    {bumps : List Bump} (hguard : s.Orderly (.run (.down b)))
    (hended : ∀ task, b.task = some task → task ∉ s.ended)
    (hmove : Downlink.Move S s.io.down b io.down bumps) :
    Answered S { s with io } := by
  refine ⟨h.books.move hmove, fun t ht => ?_⟩
  have habsent := h.books.absent _ le_rfl
  by_cases hgone : t ∈ io.down.correlator.topics
  · exact Or.inl hgone
  · refine Or.inr ?_
    rcases hmove.answered ht hgone with hleft | ⟨task, htask, howed⟩ | ⟨hsub, hnot, hother⟩
    · obtain ⟨task, hopen, hne, howed⟩ := hguard t hleft
      exact ⟨task, hopen, (hmove.owed_of_ne habsent hne).symm ▸ howed⟩
    · exact ⟨task, hended task htask, howed⟩
    · obtain ⟨task, hopen, howed⟩ := (h.answered t hsub).resolve_left hnot
      have hne : b.task ≠ some task := fun htask => hother task htask howed
      exact ⟨task, hopen, (hmove.owed_of_ne habsent hne).symm ▸ howed⟩

/-- A guarded cut of a task keeps that. -/
theorem Answered.cancel (h : s.Answered S) {task : RelayTask} {effect : Bool}
    (hguard : s.Orderly (.cancel task effect)) (hsuspended : s.io.down.suspended task = true) :
    Answered S { s with
      io := { s.io with down := s.io.down.cut task effect }, ended := s.ended ++ [task] } := by
  refine ⟨h.books.cut task effect, fun t ht => ?_⟩
  have hframe := s.io.down.cut_frame task effect
  have hlast : ∀ other, other ∉ s.ended → other ≠ task → t ∈ s.io.down.owed other →
      ∃ task' ∉ s.ended ++ [task], t ∈ (s.io.down.cut task effect).owed task' := by
    intro other hopen hne howed
    exact ⟨other, by simp [hopen, hne], (hframe.owed hne).symm ▸ howed⟩
  by_cases hgone : t ∈ s.io.down.correlator.topics
  · exact Or.inl (hframe.correlator.symm ▸ hgone)
  · refine Or.inr ?_
    rcases Downlink.cut_answered hsuspended ht hgone with hleft | ⟨hsub, hnot⟩
    · obtain ⟨other, hopen, hne, howed⟩ := hguard t hleft
      exact hlast other hopen (fun heq => hne (heq ▸ rfl)) howed
    · obtain ⟨other, hopen, howed⟩ := (h.answered t hsub).resolve_left hgone
      exact hlast other hopen (fun heq => hnot (heq ▸ howed)) howed

/-- In a run whose steps all meet the guard, every reply topic that is subscribed has its entry, or
a task that has not ended answers for it. -/
theorem answered (h : (system S).Reachable Orderly s) : s.Answered S := by
  apply h.invariant (I := fun s => s.Answered S)
  · rintro s ⟨siteUp, rfl⟩
    exact ⟨Downlink.books_start S, fun t ht => by simp [RelayIo.start, Downlink.start] at ht⟩
  · intro s a s' _ hanswered hguard hstep
    cases a with
    | run a =>
      simp only [system, step] at hstep
      split at hstep
      · cases hstep
      · rename_i hended
        obtain ⟨io, hio, rfl⟩ := Option.map_eq_some_iff.mp hstep
        cases a with
        | up b =>
          obtain ⟨bumps, -, hdown, -⟩ := RelayIo.step_up hio
          exact ⟨hdown ▸ hanswered.books, hdown ▸ hanswered.answered⟩
        | down b =>
          obtain ⟨bumps, hs, -, -⟩ := RelayIo.step_down hio
          refine hanswered.run hguard (fun task htask => ?_) (Downlink.step_move hs)
          simpa [hasEnded, RelayIoAction.task, htask] using hended
    | shutdown =>
      simp only [system, step] at hstep
      split at hstep
      · cases hstep
      · cases hstep
        exact ⟨hanswered.books, hanswered.answered⟩
    | cancel task effect =>
      simp only [system, step] at hstep
      split at hstep
      · rename_i hcut
        cases hstep
        exact hanswered.cancel hguard (Bool.and_eq_true_iff.mp hcut).2
      · cases hstep

omit [Inhabited ρ] in
/-- A task that answers for a topic is one of those that shutdown waits for. -/
theorem mem_tasks_of_owed (h : s.io.down.Books S) {task : RelayTask} {t : String}
    (howed : t ∈ s.io.down.owed task) : task ∈ tasks S ++ s.replyTasks := by
  cases task with
  | uplinkPump i | watcher => cases howed
  | sweeper => simp [tasks]
  | downlinkPump i =>
    have hi : i < S.siteSubscriptions.length := by
      by_contra hle
      simp [Downlink.owed, h.idle i (Nat.le_of_not_lt hle)] at howed
    simp [tasks, hi]
  | replyPump k =>
    have hk : k < s.io.down.nextReplyPump := by
      by_contra hle
      simp [Downlink.owed, h.absent k (Nat.le_of_not_lt hle)] at howed
    simp [replyTasks, hk]

end Stopping

/-- Shutdown leaves nothing subscribed, in every run in which no task leaves a reply topic behind.
Take any run, and a shutdown at any moment of it, with its tasks cut at any of their awaits.  The
condition is on the steps: no task is cut, or goes on, while it answers for a topic that is
subscribed and has lost its entry, unless the unsubscribe of that topic takes effect there or
another task still answers for it.  When all tasks have ended and shutdown returns, no filter of the
engine and no reply topic is subscribed. -/
theorem shutdown_unsubscribes [Inhabited ρ] (S : Setup Bytes ρ) {s : Stopping Bytes}
    (h : (Stopping.system S).Reachable Stopping.Orderly s) (hended : s.AllEnded S) :
    s.LeavesNothing S := by
  have hanswered := Stopping.answered h
  refine Stopping.leavesNothing_iff.mpr fun t ht => Or.inl ?_
  rcases hanswered.answered t ht with hentry | ⟨task, hopen, howed⟩
  · exact hentry
  · exact absurd (hended task (Stopping.mem_tasks_of_owed hanswered.books howed)) hopen

/-! ### Two shutdowns of a relay -/

namespace Stopping

/-- A sufficient test for the guard: nothing is left behind. -/
def isOrderly (s : Stopping Bytes) (a : StoppingAction Bytes) : Bool := (s.leaves a).isEmpty

/-- A step that passes the test meets the guard. -/
theorem orderly_of_isOrderly (s : Stopping Bytes) (a : StoppingAction Bytes)
    (h : isOrderly s a = true) : s.Orderly a := by
  intro t ht
  simp [List.isEmpty_iff.mp h] at ht

/-- A command with a reply path is relayed on reply topic `r-1`. -/
def commandRun : List (StoppingAction (Message Unit)) :=
  [.run (.down (.publish "ecv1/gw-01/adapter/main/cmd/write" (.sample (some "site/replies/7")))),
    .run (.down (.recv 0)), .run (.down (.rewriteDownlink 0 "r-1" 0)),
    .run (.down (.subscribed 0 .ok)), .run (.down (.check 0)), .run (.down (.published 0 .ok))]

/-- The reply has been taken from the map, and its publish on the site broker is stalled. -/
def stalledRun : List (StoppingAction (Message Unit)) :=
  [.run (.down (.reply "r-1" (.sample none))), .run (.down (.replyRecv 0)),
    .run (.down (.handleReply 0))]

/-- The sweep is about to unsubscribe reply topic `r-1`, and a second command about to subscribe
reply topic `r-2`. -/
def expiringRun : List (StoppingAction (Message Unit)) :=
  [.run (.down (.sweep 60000000000)),
    .run (.down (.publish "ecv1/gw-01/adapter/main/cmd/write" (.sample (some "site/replies/8")))),
    .run (.down (.recv 0)), .run (.down (.rewriteDownlink 0 "r-2" 60000000000))]

/-- Shutdown is called and all tasks are cut, some of them behind the call that they await. -/
def shutdownRunWith (effect : RelayTask → Bool) : List (StoppingAction (Message Unit)) :=
  .shutdown :: (tasks Setup.gw01 ++ [RelayTask.replyPump 0]).map fun task =>
    .cancel task (effect task)

/-- Shutdown is called and all tasks are cut. -/
def shutdownRun : List (StoppingAction (Message Unit)) := shutdownRunWith fun _ => false

end Stopping

/-- Shutdown in the middle of a reply leaves the reply topic subscribed. -/
theorem shutdown_leaves_reply_topic :
    ¬ ∀ s, (Stopping.system Setup.gw01).Reachable System.anyStep s → s.AllEnded Setup.gw01 →
      s.LeavesNothing Setup.gw01 := by
  intro hall
  obtain ⟨s, hs, hobs⟩ := System.exists_reachable_of_exec (M := Stopping.system Setup.gw01)
    (fun _ _ => true) (P := System.anyStep) (fun _ _ _ => trivial) (.init ⟨true, rfl⟩)
    (Stopping.commandRun ++ Stopping.stalledRun ++ Stopping.shutdownRun)
    (fun s => (decide (s.AllEnded Setup.gw01), (s.finish Setup.gw01).device))
    (x := (true, ["r-1"])) (by decide +kernel)
  obtain ⟨hended, hdevice⟩ := Prod.mk.inj hobs
  have hnothing := hall s hs (of_decide_eq_true hended)
  exact absurd (hnothing.1.symm.trans hdevice) (by simp)

/-- Shutdown while the sweep unsubscribes one reply topic and a pump subscribes another one: both
are cut behind their calls, and nothing is left. -/
theorem shutdown_unsubscribes_gw01 : ∃ s : Stopping (Message Unit),
    s.io.down.subscriptions.map Prod.snd = ["r-2"] ∧ s.AllEnded Setup.gw01 ∧
      s.LeavesNothing Setup.gw01 := by
  obtain ⟨s, hs, hobs⟩ := System.exists_reachable_of_exec (M := Stopping.system Setup.gw01)
    Stopping.isOrderly Stopping.orderly_of_isOrderly (.init ⟨true, rfl⟩)
    (Stopping.commandRun ++ Stopping.expiringRun ++ Stopping.shutdownRunWith fun _ => true)
    (fun s => (decide (s.AllEnded Setup.gw01), s.io.down.subscriptions.map Prod.snd))
    (x := (true, ["r-2"])) (by decide +kernel)
  obtain ⟨hended, hsubscriptions⟩ := Prod.mk.inj hobs
  have hended := of_decide_eq_true hended
  exact ⟨s, hsubscriptions, hended, shutdown_unsubscribes Setup.gw01 hs hended⟩

end UnsBridge
