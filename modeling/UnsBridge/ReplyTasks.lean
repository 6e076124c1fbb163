import UnsBridge.FirstReply
import UnsBridge.Work

/-!
# The tasks of the reply paths

An entry of the correlation map stands for a reply that some task has to receive: the downlink pump
that recorded the command, as long as it is busy with the reply path, and then the reply pump that
it spawns.  `Attended` says that every entry has such a task.  A task that lets go of a topic takes
its entry out of the map, or has seen that it has left: a reply pump ends without a reply only when
its subscription has been closed, and that happens to topics whose entries have left.

`commands_attended` concludes that no entry is without a task and, before shutdown, that no reply
pump waits without an entry: when the tasks have nothing left to do, there is one of them for each
entry.  This says nothing about the command itself.  Its publish may have failed, and then entry and
pump wait until they expire.
-/

namespace UnsBridge

open Ownership Transition

variable {Bytes ρ : Type}

namespace Downlink

/-- Every entry of the correlation map has a task. -/
def Attended (s : Downlink Bytes) : Prop := Served s.topicOwners {t | t ∈ s.correlator.topics}

/-- A reply pump waits for the reply on a topic, with a subscription that stands. -/
def Attends (s : Downlink Bytes) (k : ℕ) (t : String) : Prop :=
  ∃ subscription, s.replyPumps k = .waiting t subscription ∧ (subscription, t) ∈ s.subscriptions

variable {s s' : Downlink Bytes}

/-- The topic of a reply pump that waits for a reply is its own. -/
theorem Attends.topicOwners {k : ℕ} {t : String} (h : s.Attends k t) :
    s.topicOwners (.inr k) = some t := by
  obtain ⟨subscription, hphase, -⟩ := h
  exact congrArg ReplyPhase.topic hphase

variable [Inhabited ρ] {S : Setup Bytes ρ} {a : DownlinkAction Bytes} {bumps : List Bump}

omit [Inhabited ρ] in
/-- A step enters no topic but the one that it mints. -/
theorem MapMove.topics (h : MapMove S s a s') {t : String} (ht : t ∈ s'.correlator.topics) :
    t ∈ s.correlator.topics ∨ ∃ i now, a = .rewriteDownlink i t now := by
  cases h with
  | shrink es hpending => exact Or.inl ((hpending.map _).subset ht)
  | enter i mint now m msg p kept ha hpump hdecode hreply hkept hpending =>
    have htopics : s'.correlator.topics = kept.map Prod.fst ++ [mint] := by
      simp [ReplyCorrelator.topics, hpending]
    rcases List.mem_append.mp (htopics ▸ ht) with ht | ht
    · exact Or.inl ((hkept.map _).subset ht)
    · exact Or.inr ⟨i, now, List.mem_singleton.mp ht ▸ ha⟩

/-- A reply pump that has handled its message leaves no entry of its topic behind. -/
theorem notMem_handleReply (hkeys : s.Keys) {k : ℕ} {t : String} {payload : Bytes}
    (hphase : s.replyPumps k = .received t payload)
    (h : s.step S (.handleReply k) = some (s', bumps)) : t ∉ s'.correlator.topics := by
  simp only [step, handleReply, hphase] at h
  split at h
  · rename_i correlator htake
    cases h
    exact (ReplyCorrelator.take_eq_none (congrArg Prod.fst htake)).1
  · rename_i site correlator htake
    have hgone := ReplyWatch.notMem_take hkeys (congrArg Prod.fst htake)
    rw [htake] at hgone
    split at h <;> cases h <;> exact hgone

/-- A reply pump ends without a reply only after its subscription has been closed. -/
theorem notMem_replyClosed {k n : ℕ} {t : String} (hphase : s.replyPumps k = .waiting t n)
    (h : s.step S (.replyClosed k) = some (s', bumps)) : (n, t) ∉ s.subscriptions := by
  simp only [step, replyClosed, hphase] at h
  split at h
  · rename_i hclosed
    exact hclosed.2
  · cases h

/-- Every step leaves every entry with a task. -/
theorem Attended.step (h : s.Attended) (hpaths : s.ReplyPaths)
    (habsent : s.replyPumps s.nextReplyPump = .absent)
    (hstep : s.step S a = some (s', bumps)) : s'.Attended := by
  have hmove := step_move hstep
  have hsub := fun {t : String} => hmove.map.topics (t := t)
  cases hmove with
  | publish | refuse | swept | reply => exact h
  | sweep => exact h.mono fun t ht => (hsub ht).resolve_right (by simp)
  | forward i c bus bytes hpump | pass i mint now m msg hpump | malformed i mint now m hpump
  | dropped i outcome m t hpump | settle i outcome m b hpump =>
    exact h.update_of_eq_none (topicOwners_pump rfl rfl rfl) (congrArg DownlinkPhase.topic hpump)
      fun t ht => Or.inl ht
  | panic i mint now m pending hpump hoverflow hpending =>
    exact h.update_of_eq_none (topicOwners_pump rfl rfl rfl) (congrArg DownlinkPhase.topic hpump)
      fun t ht => Or.inl (((hpending ▸ s.correlator.evictOldest_sublist).map _).subset ht)
  | record i mint now m msg site bytes hpump
  | replace i mint now m msg site bytes oldest p rest hpump =>
    refine h.update_of_eq_none (topicOwners_pump rfl rfl rfl) (congrArg DownlinkPhase.topic hpump)
      fun t ht => (hsub ht).imp id ?_
    rintro ⟨j, now', ha⟩
    cases ha
    rfl
  | expired i outcome oldest m t hpump | subscribe i m t hpump =>
    refine h.update (topicOwners_pump rfl rfl rfl) (fun u hu => Or.inl hu) fun u hu hown => ?_
    exact (congrArg DownlinkPhase.topic hpump).symm.trans hown
  | abandon i effect m t hpump =>
    refine h.update (topicOwners_pump rfl rfl rfl)
      (fun u hu => Or.inl ((hsub hu).resolve_right (by simp))) fun u hu hown => ?_
    obtain rfl : t = u :=
      Option.some.inj ((congrArg DownlinkPhase.topic hpump).symm.trans hown)
    obtain ⟨p, hp, rfl⟩ := List.mem_map.mp hu
    simp [ReplyCorrelator.abandon, setPump] at hp
  | spawn i m t k hpump =>
    exact h.pass (topicOwners_spawn rfl rfl rfl rfl) (congrArg DownlinkPhase.topic hpump)
      (congrArg ReplyPhase.topic habsent)
  | undo i m t k hpump hgone =>
    refine h.update (topicOwners_pump rfl rfl rfl) (fun u hu => Or.inl hu) fun u hu hown => ?_
    have htu := Option.some.inj ((congrArg DownlinkPhase.topic hpump).symm.trans hown)
    exact absurd (htu ▸ hu) hgone
  | arrive k t subscription payload inbox hphase =>
    refine h.update (topicOwners_replyPump rfl rfl rfl) (fun u hu => Or.inl hu) fun u hu hown => ?_
    exact (congrArg ReplyPhase.topic hphase).symm.trans hown
  | close k t subscription hphase =>
    refine h.update (topicOwners_replyPump rfl rfl rfl) (fun u hu => Or.inl hu) fun u hu hown => ?_
    have htu := Option.some.inj ((congrArg ReplyPhase.topic hphase).symm.trans hown)
    -- the subscription of a live entry stands
    have hstands := hpaths.stands (.inr k) subscription t (congrArg ReplyPhase.hold hphase)
    exact absurd (hstands (htu ▸ hu)) (notMem_replyClosed hphase hstep)
  | stray k t payload hphase | relay k t payload bytes p before after hphase
  | discard k t payload reason p before after hphase =>
    refine h.update (topicOwners_replyPump rfl rfl rfl)
      (fun u hu => Or.inl ((hsub hu).resolve_right (by simp))) fun u hu hown => ?_
    have htu := Option.some.inj ((congrArg ReplyPhase.topic hphase).symm.trans hown)
    exact absurd (htu ▸ hu) (notMem_handleReply hpaths.keys hphase hstep)
  | relayed k outcome t b hphase | settled k outcome t hphase =>
    exact h.update_of_eq_none (topicOwners_replyPump rfl rfl rfl)
      (congrArg ReplyPhase.topic hphase) fun u hu => Or.inl hu

/-- Every entry has a task in every state of every run with fresh mints. -/
theorem attended (h : (system S).Reachable FreshMints s) : s.Attended := by
  induction h with
  | init hinit =>
    subst hinit
    rintro t ht
    simp [start, ReplyCorrelator.topics, ReplyCorrelator.new] at ht
  | @step r _ _ hreach hfresh hstep hattended =>
    obtain ⟨⟨r', bumps⟩, hdown, rfl⟩ := Option.map_eq_some_iff.mp hstep
    exact hattended.step (replyPaths hreach) ((books hreach).absent _ le_rfl) hdown

omit [Inhabited ρ] in
/-- The task of an entry establishes its reply path, waits for its reply or handles it. -/
theorem ReplyPaths.task (h : s.ReplyPaths) {t : String} (ht : t ∈ s.correlator.topics)
    {x : ℕ ⊕ ℕ} (hx : s.topicOwners x = some t) :
    (∃ i, (s.pumps i).topic = some t) ∨ (∃ k payload, s.replyPumps k = .received t payload) ∨
      ∃ k, s.Attends k t := by
  cases x with
  | inl i => exact Or.inl ⟨i, hx⟩
  | inr k =>
    have hphase : (s.replyPumps k).topic = some t := hx
    cases hreply : s.replyPumps k with
    | received u payload =>
      simp only [hreply, ReplyPhase.topic, Option.some.injEq] at hphase
      exact Or.inr (Or.inl ⟨k, payload, hphase ▸ hreply⟩)
    | waiting u n =>
      simp only [hreply, ReplyPhase.topic, Option.some.injEq] at hphase
      subst hphase
      have hopen := h.stands (.inr k) n u (congrArg ReplyPhase.hold hreply) ht
      exact Or.inr (Or.inr ⟨k, n, hreply, hopen⟩)
    | _ => simp [hreply, ReplyPhase.topic] at hphase

/-- Every entry has one of these tasks. -/
theorem exists_task (h : (system S).Reachable FreshMints s) {t : String}
    (ht : t ∈ s.correlator.topics) :
    (∃ i, (s.pumps i).topic = some t) ∨ (∃ k payload, s.replyPumps k = .received t payload) ∨
      ∃ k, s.Attends k t := by
  obtain ⟨x, hx⟩ := attended h t ht
  exact (replyPaths h).task ht hx

omit [Inhabited ρ] in
/-- At rest the task of an entry is a reply pump. -/
theorem AtRest.attends (h : s.AtRest) {t : String}
    (htask : (∃ i, (s.pumps i).topic = some t) ∨
      (∃ k payload, s.replyPumps k = .received t payload) ∨ ∃ k, s.Attends k t) :
    ∃ k, s.Attends k t := by
  rcases htask with ⟨i, hi⟩ | ⟨k, payload, hk⟩ | hattends
  · rcases h.pumps i with hpump | ⟨hpump, -⟩ <;> simp [hpump, DownlinkPhase.topic] at hi
  · rcases h.replyPumps k with hphase | hphase | ⟨u, n, hphase, -⟩ <;> simp [hphase] at hk
  · exact hattends

omit [Inhabited ρ] in
/-- At rest there are no duties. -/
theorem AtRest.notMem_duties (h : s.AtRest) (x : Leases.Duty × String) : x ∉ s.leases.duties := by
  rintro (hx | hx | hx)
  · obtain ⟨i, hi⟩ := Set.mem_iUnion.mp hx
    rcases h.pumps i with hpump | ⟨hpump, -⟩ <;> simp [hpump, DownlinkPhase.duties] at hi
  · obtain ⟨d, t⟩ := x
    simp [h.sweeper] at hx
  · obtain ⟨k, hk⟩ := Set.mem_iUnion.mp hx
    rcases h.replyPumps k with hphase | hphase | ⟨t, n, hphase, -⟩ <;>
      simp [hphase, ReplyPhase.duties] at hk

/-- Whether the downlink is at rest. -/
def isAtRest (S : Setup Bytes ρ) (s : Downlink Bytes) : Bool :=
  s.isQuiescent S &&
  (List.range S.siteSubscriptions.length).all (fun i => (s.bus.queues i).isEmpty) &&
  (List.range s.nextReplyPump).all fun k => match s.replyPumps k with
    | .waiting t n => (s.inbox n).isEmpty && s.subscriptions.contains (n, t)
    | _ => true

omit [Inhabited ρ] in
/-- A state that passes the test is at rest. -/
theorem Books.atRest (h : s.Books S) (hrest : s.isAtRest S = true) : s.AtRest := by
  simp only [isAtRest, Bool.and_eq_true, List.all_eq_true, List.mem_range] at hrest
  obtain ⟨⟨hquiescent, hqueues⟩, hreply⟩ := hrest
  have hquiet := h.quiescent hquiescent
  refine ⟨fun i => Or.inr ⟨hquiet.pumps i, ?_⟩, hquiet.sweeper, fun k => ?_⟩
  · cases hqueue : s.bus.queues i with
    | nil => rfl
    | cons c rest =>
      obtain ⟨-, -, sub, hsub, -⟩ := h.bus.faithful i c (by simp [Bus.log, hqueue])
      have hempty := hqueues i (List.getElem?_eq_some_iff.mp hsub).1
      simp [hqueue] at hempty
  · rcases hquiet.replyPumps k with hphase | ⟨t, n, hphase⟩ | hphase
    · exact Or.inl hphase
    · have hk : k < s.nextReplyPump := by
        by_contra hle
        simp [h.absent k (Nat.le_of_not_lt hle)] at hphase
      have hwaits := hreply k hk
      simp only [hphase, Bool.and_eq_true, List.isEmpty_iff, List.contains_iff_mem] at hwaits
      exact Or.inr (Or.inr ⟨t, n, hphase, hwaits⟩)
    · exact Or.inr (Or.inl hphase)

end Downlink

/-- Entries and tasks belong together.  In every run with fresh mints, whatever subscribes and
unsubscribes fail, every entry of the correlation map has exactly one task: the downlink pump that
recorded the command and is not done with its reply path, a reply pump that has received a reply, or
a reply pump that waits on a subscription that stands.  When the tasks have nothing left to do, it
is a reply pump that waits; and before shutdown, as long as unsubscribes succeed, failed subscribes
leave nothing behind and no deadline overflows, there are no other reply pumps that wait then. -/
theorem commands_attended [Inhabited ρ] (S : Setup Bytes ρ) {s : RelayIo Bytes}
    (h : (RelayIo.system S).Reachable (RelayIo.onDown Downlink.FreshMints) s) :
    (∀ t ∈ s.down.correlator.topics, (∃! x, s.down.topicOwners x = some t) ∧
      ((∃ i, (s.down.pumps i).topic = some t) ∨
        (∃ k payload, s.down.replyPumps k = .received t payload) ∨ ∃ k, s.down.Attends k t)) ∧
    (s.down.AtRest → ∀ t ∈ s.down.correlator.topics, ∃! k, s.down.Attends k t) ∧
    ((RelayIo.system S).Reachable (RelayIo.onDown Downlink.Clean) s → s.down.AtRest →
      ∀ k t n, s.down.replyPumps k = .waiting t n → t ∈ s.down.correlator.topics) := by
  have hreach := RelayIo.reachable_down h
  have hpaths := Downlink.replyPaths hreach
  refine ⟨fun t ht => ⟨?_, Downlink.exists_task hreach ht⟩, fun hrest t ht => ?_,
    fun hclean hrest k t n hphase => ?_⟩
  · exact (Downlink.attended hreach).existsUnique hpaths.topics ht
  · obtain ⟨k, hk⟩ := hrest.attends (Downlink.exists_task hreach ht)
    refine ⟨k, hk, fun j hj => ?_⟩
    exact Sum.inr.inj (hpaths.topics.unique _ _ t hj.topicOwners hk.topicOwners)
  · have hleased := Downlink.leased (RelayIo.reachable_down hclean)
    have heq := hleased.consistent.held_eq_live hrest.notMem_duties
    rcases hrest.replyPumps k with hidle | hdone | ⟨u, m, hwaiting, -, hopen⟩
    · simp [hidle] at hphase
    · simp [hdone] at hphase
    · rw [hwaiting] at hphase
      cases hphase
      have hheld : t ∈ s.down.leases.held := List.mem_map.mpr ⟨(n, t), hopen, rfl⟩
      rw [heq] at hheld
      exact hheld

/-- After the sample run exactly one reply pump waits for the reply to the second command. -/
theorem commands_attended_gw01 : ∃ s : RelayIo (Message Unit),
    s.down.correlator.topics = ["r-2"] ∧ (∃! k, s.down.Attends k "r-2") ∧
      ∀ k t n, s.down.replyPumps k = .waiting t n → t = "r-2" := by
  obtain ⟨s, hs, hobs⟩ := System.exists_reachable_of_exec (M := RelayIo.system Setup.gw01)
    isClean clean_of_isClean (.init ⟨true, rfl⟩) expiryRun
    (fun s => (s.down.correlator.topics, s.down.isAtRest Setup.gw01)) (x := (["r-2"], true))
    (by decide +kernel)
  obtain ⟨htopics, hrest⟩ := Prod.mk.inj hobs
  have hatRest := (Downlink.books (RelayIo.reachable_down hs)).atRest hrest
  have hfresh : (RelayIo.system Setup.gw01).Reachable (RelayIo.onDown Downlink.FreshMints) s :=
    hs.mono fun _ _ hclean b hb => (hclean b hb).fresh
  obtain ⟨-, hone, hleft⟩ := commands_attended Setup.gw01 hfresh
  refine ⟨s, htopics, hone hatRest "r-2" (by simp [htopics]), fun k t n hphase => ?_⟩
  simpa [htopics] using hleft hs hatRest k t n hphase

end UnsBridge
