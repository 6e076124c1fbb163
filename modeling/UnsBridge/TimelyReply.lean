import UnsBridge.Capacity
import UnsBridge.FirstReply

/-!
# A reply in time

A full correlation map gives up its oldest entry to a new one, and the sweep takes what is overdue.
An entry therefore outlives every sweep before its deadline and as many newer requests as the map
has room for behind it, whatever becomes of the other entries (`ReplyCorrelator.Stands`).  A request
is a command that asks for a reply; those that do not, and those that cannot be decoded or encoded,
leave the map alone.  Until
then the reply path of the command is open, and the first message on its topic is relayed to the
requester if the hop rules allow it: `timely_reply_relayed`.
-/

namespace UnsBridge

open Transition

variable {Bytes ρ : Type}

namespace ReplyCorrelator

/-- The entry of a topic outlives `n` more requests. -/
def Stands (t : String) (p : Pending) (n : ℕ) (c : ReplyCorrelator) : Prop :=
  ∃ before after, c.pending = before ++ (t, p) :: after ∧ after.length + n < c.maxPending

variable {c : ReplyCorrelator} {t : String} {p : Pending} {n : ℕ}

/-- An entry that stands is in the map. -/
theorem Stands.mem (h : c.Stands t p n) : (t, p) ∈ c.pending := by
  obtain ⟨before, after, hpending, -⟩ := h
  simp [hpending]

/-- The topic of an entry that stands is in the map. -/
theorem Stands.mem_topics (h : c.Stands t p n) : t ∈ c.topics :=
  List.mem_map_of_mem h.mem

/-- An eviction takes another entry. -/
theorem Stands.evictOldest (h : c.Stands t p (n + 1)) :
    ∃ before after, c.evictOldest.2 = before ++ (t, p) :: after ∧
      after.length + (n + 1) < c.maxPending := by
  obtain ⟨before, after, hpending, hroom⟩ := h
  rcases c.evictOldest_cases with ⟨-, hevict⟩ | ⟨oldest, q, rest, hfull, hold, hevict⟩
  · exact ⟨before, after, by rw [hevict, hpending], hroom⟩
  · rw [hevict]
    cases before with
    | nil =>
      rw [hpending, List.nil_append, List.length_cons] at hfull
      omega
    | cons first before =>
      rw [hpending, List.cons_append, List.cons.injEq] at hold
      exact ⟨before, after, hold.2.symm, hroom⟩

/-- Whether a call of `rewrite_downlink` makes room for an entry: it records one, or panics where it
computes the deadline. -/
def makesRoom : Option (DownlinkRewrite Bytes) → Bool
  | none | some (.rewritten _ _ _) => true
  | some .passthrough | some (.drop _) => false

/-- A new entry uses up one place, and other commands use up none. -/
theorem Stands.rewriteDownlink (codec : Codec Bytes ρ) (relayed : Bytes) (mint : String)
    (now : Instant) (h : c.Stands t p
      (n + (makesRoom (c.rewriteDownlink codec relayed mint now).1).toNat)) :
    (c.rewriteDownlink codec relayed mint now).2.Stands t p n := by
  have hspec := c.rewriteDownlink_spec codec relayed mint now
  generalize c.rewriteDownlink codec relayed mint now = r at h hspec ⊢
  cases hspec with
  | malformed => exact h
  | passthrough => exact h
  | rewritten =>
    obtain ⟨before, after, hevict, hroom⟩ := h.evictOldest
    refine ⟨before, after ++ [_], by rw [hevict, List.append_assoc, List.cons_append], ?_⟩
    rw [List.length_append, List.length_singleton]
    change after.length + 1 + n < c.maxPending
    omega
  | panicked =>
    obtain ⟨before, after, hevict, hroom⟩ := h.evictOldest
    refine ⟨before, after, hevict, ?_⟩
    change after.length + n < c.maxPending
    omega

/-- A sweep before the deadline stops at the entry. -/
theorem Stands.sweep (h : c.Stands t p n) {now : Instant} (hearly : now < p.deadline) :
    (c.sweep now).2.Stands t p n := by
  obtain ⟨before, after, hpending, hroom⟩ := h
  have hstop : c.pending.findIdx (fun q => now < q.2.deadline) ≤ before.length := by
    by_contra hlt
    have hentry : before.length < c.pending.length := by simp [hpending]
    have hoverdue := List.not_of_lt_findIdx (Nat.not_le.mp hlt)
    simp [hpending, hearly] at hoverdue
  have hdrop : (c.sweep now).2.pending =
      before.drop (c.pending.findIdx fun q => now < q.2.deadline) ++ (t, p) :: after := by
    rw [← List.drop_append_of_le_length hstop, ← hpending]
    rfl
  exact ⟨_, after, hdrop, hroom⟩

/-- Another topic is taken. -/
theorem Stands.take (h : c.Stands t p n) {t' : String} (hne : t ≠ t') :
    (c.take t').2.Stands t p n := by
  obtain ⟨before, after, hpending, hroom⟩ := h
  cases htake : (c.take t').1 with
  | none =>
    rw [(take_eq_none htake).2]
    exact ⟨before, after, hpending, hroom⟩
  | some site =>
    obtain ⟨before', q, after', hpending', hfirst, -, hkept⟩ := take_eq_some htake
    rw [hkept]
    rcases List.append_eq_append_iff.mp (hpending.symm.trans hpending') with
      ⟨mid, hmid, htail⟩ | ⟨mid, hmid, htail⟩
    · cases mid with
      | nil =>
        simp only [List.nil_append, List.cons.injEq, Prod.mk.injEq] at htail
        exact absurd htail.1.1 hne
      | cons x mid =>
        simp only [List.cons_append, List.cons.injEq] at htail
        obtain ⟨rfl, rfl⟩ := htail
        refine ⟨before, mid ++ after', by simp [hmid], ?_⟩
        simp only [List.length_append, List.length_cons] at hroom ⊢
        omega
    · cases mid with
      | nil =>
        simp only [List.nil_append, List.cons.injEq, Prod.mk.injEq] at htail
        exact absurd htail.1.1.symm hne
      | cons x mid =>
        simp only [List.cons_append, List.cons.injEq] at htail
        obtain ⟨rfl, rfl⟩ := htail
        exact ⟨before' ++ mid, after, by simp, hroom⟩

/-- Another topic is abandoned. -/
theorem Stands.abandon (h : c.Stands t p n) {t' : String} (hne : t ≠ t') :
    (c.abandon t').Stands t p n := by
  obtain ⟨before, after, hpending, hroom⟩ := h
  refine ⟨before.filter fun q => q.1 ≠ t', after.filter fun q => q.1 ≠ t', ?_, ?_⟩
  · simp [ReplyCorrelator.abandon, hpending, hne]
  · have hle := List.length_filter_le (fun q : String × Pending => decide (q.1 ≠ t')) after
    exact Nat.lt_of_le_of_lt (Nat.add_le_add_right hle n) hroom

end ReplyCorrelator

/-- Whether a step makes room for a new entry: a pump rewrites a command that asks for a reply. -/
def Downlink.requests (S : Setup Bytes ρ) (s : Downlink Bytes) : DownlinkAction Bytes → Bool
  | .rewriteDownlink i mint now =>
    match s.pumps i with
    | .forwarded m =>
      ReplyCorrelator.makesRoom (s.correlator.rewriteDownlink S.codec m.bytes mint now).1
    | _ => false
  | _ => false

/-- Whether an action is a receive of reply pump `k`, or the handling of what it has received. -/
def DownlinkAction.handles (k : ℕ) : DownlinkAction Bytes → Bool
  | .replyRecv j | .handleReply j => j = k
  | _ => false

namespace Downlink

/-- Whether a step mints a fresh topic, if any, and sweeps before the deadline of an entry. -/
def inTime (p : Pending) (s : Downlink Bytes) : DownlinkAction Bytes → Bool
  | .sweep now => now < p.deadline
  | a => s.isFresh a

/-- A step that passes the test mints a fresh topic. -/
theorem freshMints_of_inTime {p : Pending} {s : Downlink Bytes} {a : DownlinkAction Bytes}
    (h : s.inTime p a = true) : s.FreshMints a := by
  cases a with
  | sweep now => exact fun i mint now' heq => by cases heq
  | _ => exact freshMints_of_isFresh s _ h

variable [Inhabited ρ]

/-- What a step of the downlink makes of the correlation map. -/
inductive MapStep (S : Setup Bytes ρ) (s : Downlink Bytes) :
    DownlinkAction Bytes → ReplyCorrelator → Prop
  /-- Nothing. -/
  | keep (a : DownlinkAction Bytes) : MapStep S s a s.correlator
  /-- A command is rewritten. -/
  | rewrite (i : ℕ) (mint : String) (now : Instant) (m : Command Bytes)
      (hpump : s.pumps i = .forwarded m) :
      MapStep S s (.rewriteDownlink i mint now)
        (s.correlator.rewriteDownlink S.codec m.bytes mint now).2
  /-- The subscribe of a minted topic has failed. -/
  | abandon (i : ℕ) (effect : Bool) (m : Command Bytes) (t : String)
      (hpump : s.pumps i = .subscribing m t) :
      MapStep S s (.subscribed i (.failed effect)) (s.correlator.abandon t)
  /-- The overdue entries are swept. -/
  | sweep (now : Instant) : MapStep S s (.sweep now) (s.correlator.sweep now).2
  /-- A reply is resolved. -/
  | take (k : ℕ) (t : String) (payload : Bytes) (hphase : s.replyPumps k = .received t payload) :
      MapStep S s (.handleReply k) (s.correlator.take t).2

variable {S : Setup Bytes ρ} {s s' : Downlink Bytes} {a : DownlinkAction Bytes} {bumps : List Bump}

/-- The locked section of `rewrite_downlink`. -/
theorem rewriteDownlink_mapStep {i : ℕ} {mint : String} {now : Instant}
    (h : s.step S (.rewriteDownlink i mint now) = some (s', bumps)) :
    MapStep S s (.rewriteDownlink i mint now) s'.correlator := by
  simp only [step, rewriteDownlink] at h
  cases hpump : s.pumps i with
  | forwarded m =>
    have hrewrite := MapStep.rewrite (S := S) (s := s) i mint now m hpump
    simp only [hpump] at h
    split at h
    · cases h
      exact hrewrite
    · cases h
      exact hrewrite
    · cases h
      exact hrewrite
    · split at h <;> cases h <;> exact hrewrite
  | _ => simp [hpump] at h

/-- The locked section of `handle_reply`. -/
theorem handleReply_mapStep {k : ℕ} (h : s.step S (.handleReply k) = some (s', bumps)) :
    MapStep S s (.handleReply k) s'.correlator := by
  simp only [step, handleReply] at h
  cases hphase : s.replyPumps k with
  | received t payload =>
    have htake := MapStep.take (S := S) k t payload hphase
    simp only [hphase] at h
    split at h
    · cases h
      exact .keep _
    · rename_i site correlator hcorrelator
      rw [hcorrelator] at htake
      split at h <;> cases h <;> exact htake
  | _ => simp [hphase] at h

/-- A step of the downlink does nothing else to the map. -/
theorem step_mapStep (h : s.step S a = some (s', bumps)) : MapStep S s a s'.correlator := by
  cases step_move h with
  | pass => exact rewriteDownlink_mapStep h
  | malformed => exact rewriteDownlink_mapStep h
  | record => exact rewriteDownlink_mapStep h
  | replace => exact rewriteDownlink_mapStep h
  | panic => exact rewriteDownlink_mapStep h
  | abandon i effect m t hpump => exact .abandon i effect m t hpump
  | sweep now => exact .sweep now
  | stray => exact handleReply_mapStep h
  | relay => exact handleReply_mapStep h
  | discard => exact handleReply_mapStep h
  | _ => exact .keep _

/-- An entry outlives a step that sweeps in time and resolves no reply on its topic, and a request
uses up one place. -/
theorem stands_step {t : String} {p : Pending} {n : ℕ} {k : ℕ} (hpaths : s.ReplyPaths)
    (howner : s.topicOwners (.inr k) = some t)
    (hstands : s.correlator.Stands t p (n + (s.requests S a).toNat)) (htime : s.inTime p a = true)
    (hnot : a ≠ .handleReply k) (h : s.step S a = some (s', bumps)) :
    s'.correlator.Stands t p n := by
  have hmap := step_mapStep h
  generalize s'.correlator = c at hmap ⊢
  cases hmap with
  | keep =>
    obtain ⟨before, after, hpending, hroom⟩ := hstands
    exact ⟨before, after, hpending, by omega⟩
  | rewrite i mint now m hpump =>
    simp only [requests, hpump] at hstands
    exact hstands.rewriteDownlink S.codec m.bytes mint now
  | abandon i effect m t' hpump =>
    refine hstands.abandon ?_
    rintro rfl
    have hpump' : s.topicOwners (.inl i) = some t := congrArg DownlinkPhase.topic hpump
    cases hpaths.topics.unique _ _ t howner hpump'
  | sweep now => exact hstands.sweep (of_decide_eq_true htime)
  | take j t' payload hphase =>
    refine hstands.take ?_
    rintro rfl
    have hphase' : s.topicOwners (.inr j) = some t := congrArg ReplyPhase.topic hphase
    cases hpaths.topics.unique _ _ t howner hphase'
    exact hnot rfl

/-! ### The promise -/

/-- Where reply pump `k` stands with a topic, in a state and before the actions that are still to
come: `first` is the first message on the topic, and at least `c` of the actions to come, and of
those that have led here, receive or handle it. -/
inductive Promised (S : Setup Bytes ρ) (k n : ℕ) (t : String) (p : Pending) (first : Option Bytes)
    (c : ℕ) (s : Downlink Bytes) (as : List (DownlinkAction Bytes)) : Prop
  /-- The pump waits. -/
  | waiting (hphase : s.replyPumps k = .waiting t n)
      (hstands : s.correlator.Stands t p ((system S).tally (requests S) s as))
      (hfirst : (s.inbox n ++ as.flatMap (ReplyWatch.arrivals t)).head? = first)
      (hcount : c ≤ as.countP (DownlinkAction.handles k))
  /-- The pump has received the message. -/
  | received (payload : Bytes) (hfirst : first = some payload)
      (hphase : s.replyPumps k = .received t payload)
      (hstands : s.correlator.Stands t p ((system S).tally (requests S) s as))
      (hcount : c ≤ as.countP (DownlinkAction.handles k) + 1)
  /-- The message has been relayed if it can be prepared. -/
  | replied (payload : Bytes) (hfirst : first = some payload)
      (hreplied : ∀ bytes, prepareReply S.engine S.codec payload = .forward bytes →
        .replied t p.siteReplyTo bytes ∈ s.log)

variable {k n c : ℕ} {t : String} {p : Pending} {first : Option Bytes}
  {as : List (DownlinkAction Bytes)}

/-- The requests to come, and one more if the next step is one. -/
theorem tally_requests_cons (hstep : s.step S a = some (s', bumps)) :
    (system S).tally (requests S) s (a :: as) =
      (system S).tally (requests S) s' as + (s.requests S a).toNat :=
  System.tally_cons _ (Option.map_eq_some_iff.mpr ⟨_, hstep, rfl⟩)

omit [Inhabited ρ] in
/-- The actions of other tasks neither receive nor handle what pump `k` waits for. -/
theorem countP_handles_cons (htask : a.task ≠ some (.replyPump k)) :
    (a :: as).countP (DownlinkAction.handles k) = as.countP (DownlinkAction.handles k) := by
  refine List.countP_cons_of_neg fun hhandles => htask ?_
  cases a with
  | replyRecv j => exact congrArg (some ∘ RelayTask.replyPump) (of_decide_eq_true hhandles)
  | handleReply j => exact congrArg (some ∘ RelayTask.replyPump) (of_decide_eq_true hhandles)
  | _ => cases hhandles

/-- The entry of a topic resolves to its site topic. -/
theorem take_of_mem (hkeys : s.Keys) (hmem : (t, p) ∈ s.correlator.pending) :
    (s.correlator.take t).1 = some p.siteReplyTo := by
  cases htake : (s.correlator.take t).1 with
  | none => exact absurd (List.mem_map_of_mem hmem) (ReplyCorrelator.take_eq_none htake).1
  | some site =>
    obtain ⟨before, q, after, hpending, -, rfl, -⟩ := ReplyCorrelator.take_eq_some htake
    have hmem' : (t, q) ∈ s.correlator.pending := by simp [hpending]
    have hsame := List.inj_on_of_nodup_map hkeys.nodup hmem' hmem rfl
    rw [(Prod.mk.inj hsame).2]

/-- A reply pump that waits receives or ends. -/
theorem action_of_waiting (hphase : s.replyPumps k = .waiting t n)
    (htask : a.task = some (.replyPump k)) (hstep : s.step S a = some (s', bumps)) :
    a = .replyRecv k ∨ a = .replyClosed k := by
  cases step_move hstep with
  | arrive j => exact Or.inl (by simpa [DownlinkAction.task] using htask)
  | close j => exact Or.inr (by simpa [DownlinkAction.task] using htask)
  | stray j _ _ hj | relay j _ _ _ _ _ _ hj | discard j _ _ _ _ _ _ hj | relayed j _ _ _ hj
  | settled j _ _ hj =>
    obtain rfl : j = k := by simpa [DownlinkAction.task] using htask
    simp [hj] at hphase
  | _ => cases htask

/-- A reply pump that has received a message handles it. -/
theorem action_of_received {payload : Bytes} (hphase : s.replyPumps k = .received t payload)
    (htask : a.task = some (.replyPump k)) (hstep : s.step S a = some (s', bumps)) :
    a = .handleReply k := by
  cases step_move hstep with
  | stray j | relay j | discard j => simpa [DownlinkAction.task] using htask
  | arrive j _ _ _ _ hj | close j _ _ hj | relayed j _ _ _ hj | settled j _ _ hj =>
    obtain rfl : j = k := by simpa [DownlinkAction.task] using htask
    simp [hj] at hphase
  | _ => cases htask

/-- A pump that waits goes on. -/
theorem Promised.of_waiting (hpaths : s.ReplyPaths) (hk : k ≠ s.nextReplyPump)
    (htime : s.inTime p a = true) (hphase : s.replyPumps k = .waiting t n)
    (hstands : s.correlator.Stands t p ((system S).tally (requests S) s (a :: as)))
    (hfirst : (s.inbox n ++ (a :: as).flatMap (ReplyWatch.arrivals t)).head? = first)
    (hcount : c ≤ (a :: as).countP (DownlinkAction.handles k))
    (hstep : s.step S a = some (s', bumps)) : Promised S k n t p first c s' as := by
  have howner : s.topicOwners (.inr k) = some t := congrArg ReplyPhase.topic hphase
  have hnot : a ≠ .handleReply k := by
    rintro rfl
    simp [step, handleReply, hphase] at hstep
  have hstands' := stands_step hpaths howner (tally_requests_cons hstep ▸ hstands) htime hnot hstep
  by_cases htask : a.task = some (.replyPump k)
  · rcases action_of_waiting hphase htask hstep with rfl | rfl
    · obtain ⟨t', n', payload, rest, hphase', hinbox, -, hreceived⟩ := replyRecv_eq_some hstep
      rw [hphase] at hphase'
      cases hphase'
      refine .received payload ?_ hreceived hstands' ?_
      · rw [← hfirst, hinbox]
        rfl
      · rwa [List.countP_cons_of_pos (by simp [DownlinkAction.handles])] at hcount
    · have hopen := hpaths.stands (.inr k) n t (congrArg ReplyPhase.hold hphase) hstands.mem_topics
      simp [step, replyClosed, hphase, hopen] at hstep
  · let w : ReplyWatch Bytes := ⟨s, s.inbox n, []⟩
    let next : ReplyWatch Bytes := ⟨s', [], []⟩
    have hnext : w.down.step S a = some (next.down, bumps) := hstep
    have hhead : (s'.inbox n).head? = (s.inbox n ++ ReplyWatch.arrivals t a).head? :=
      ReplyWatch.head?_inbox (w := w) hpaths hphase hstands.mem_topics rfl htask hnext
    refine .waiting (((step_move hstep).replyPumps_eq hk htask).trans hphase) hstands' ?_
      (countP_handles_cons htask ▸ hcount)
    rw [← hfirst, List.flatMap_cons, ← List.append_assoc, List.head?_append, List.head?_append,
      hhead]

/-- A pump that has received the message goes on. -/
theorem Promised.of_received (hpaths : s.ReplyPaths) (hk : k ≠ s.nextReplyPump)
    (htime : s.inTime p a = true) {payload : Bytes} (hfirst : first = some payload)
    (hphase : s.replyPumps k = .received t payload)
    (hstands : s.correlator.Stands t p ((system S).tally (requests S) s (a :: as)))
    (hcount : c ≤ (a :: as).countP (DownlinkAction.handles k) + 1)
    (hstep : s.step S a = some (s', bumps)) : Promised S k n t p first c s' as := by
  have howner : s.topicOwners (.inr k) = some t := congrArg ReplyPhase.topic hphase
  by_cases htask : a.task = some (.replyPump k)
  · obtain rfl := action_of_received hphase htask hstep
    have htake := take_of_mem hpaths.keys hstands.mem
    exact .replied payload hfirst (handleReply_of_live hphase htake hstep).2.2.2
  · have hnot : a ≠ .handleReply k := by
      rintro rfl
      exact htask rfl
    have hstands' :=
      stands_step hpaths howner (tally_requests_cons hstep ▸ hstands) htime hnot hstep
    have hsame := (step_move hstep).replyPumps_eq hk htask
    exact .received payload hfirst (hsame.trans hphase) hstands'
      (countP_handles_cons htask ▸ hcount)

/-- The promise is kept by every step that is in time. -/
theorem Promised.step (h : Promised S k n t p first c s (a :: as)) (hpaths : s.ReplyPaths)
    (habsent : s.replyPumps s.nextReplyPump = .absent) (htime : s.inTime p a = true)
    (hstep : s.step S a = some (s', bumps)) : Promised S k n t p first c s' as := by
  have hk : s.replyPumps k ≠ .absent → k ≠ s.nextReplyPump := by
    rintro hne rfl
    exact hne habsent
  cases h with
  | waiting hphase hstands hfirst hcount =>
    exact .of_waiting hpaths (hk (by simp [hphase])) htime hphase hstands hfirst hcount hstep
  | received payload hfirst hphase hstands hcount =>
    exact .of_received hpaths (hk (by simp [hphase])) htime hfirst hphase hstands hcount hstep
  | replied payload hfirst hreplied =>
    exact .replied payload hfirst fun bytes hprepare =>
      (step_move hstep).subset_log (hreplied bytes hprepare)

/-- The promise is kept by every run that is in time. -/
theorem Promised.exec (h : (system S).Reachable FreshMints s)
    (hpromised : Promised S k n t p first c s as)
    (hrun : (system S).exec (inTime p) s as = some s') :
    (system S).Reachable FreshMints s' ∧ Promised S k n t p first c s' [] := by
  refine System.exec_remaining (M := system S)
    (fun s as => (system S).Reachable FreshMints s ∧ Promised S k n t p first c s as) (inTime p) ?_
    ⟨h, hpromised⟩ hrun
  rintro r a as r' htime hstep ⟨hreach, hpromised⟩
  refine ⟨hreach.step (freshMints_of_inTime htime) hstep, ?_⟩
  obtain ⟨⟨r'', bumps⟩, hs, rfl⟩ := Option.map_eq_some_iff.mp hstep
  exact hpromised.step (replyPaths hreach) ((books hreach).absent _ le_rfl) htime hs

/-- The bound of the map is the configured one. -/
theorem maxPending_eq {P : Downlink Bytes → DownlinkAction Bytes → Prop}
    (h : (system S).Reachable P s) : s.correlator.maxPending = max S.reply.maxPending 1 :=
  move_invariant (I := fun s => s.correlator.maxPending = max S.reply.maxPending 1) rfl
    (fun _ _ _ _ _ hmax _ hmove => hmove.maxPending.trans hmax) h

end Downlink

/-- A reply in time gets through.  Take any state that the downlink tasks reach with fresh mints and
in which a reply pump waits on the topic of an entry, and any run from there that sweeps before the
deadline of the entry and in which fewer commands ask for a reply than the map has room for behind
it, whatever else happens.  As long as nothing is published on the topic, the entry, its
subscription and its pump stay.  The first message that is published there is relayed to the
requester, if it passes the hop rules, as soon as the pump has received and handled it. -/
theorem timely_reply_relayed [Inhabited ρ] (S : Setup Bytes ρ) {s s' : Downlink Bytes}
    (h : (Downlink.system S).Reachable Downlink.FreshMints s) {k n : ℕ} {t : String} {p : Pending}
    {before after : List (String × Pending)} {as : List (DownlinkAction Bytes)}
    (hphase : s.replyPumps k = .waiting t n)
    (hentry : s.correlator.pending = before ++ (t, p) :: after)
    (hroom : after.length + (Downlink.system S).tally (Downlink.requests S) s as <
      max S.reply.maxPending 1)
    (hrun : (Downlink.system S).exec (Downlink.inTime p) s as = some s') :
    (s.inbox n ++ as.flatMap (ReplyWatch.arrivals t) = [] →
      (t, p) ∈ s'.correlator.pending ∧ (n, t) ∈ s'.subscriptions ∧
        s'.replyPumps k = .waiting t n) ∧
    ∀ payload bytes, (s.inbox n ++ as.flatMap (ReplyWatch.arrivals t)).head? = some payload →
      prepareReply S.engine S.codec payload = .forward bytes →
        2 ≤ as.countP (DownlinkAction.handles k) → .replied t p.siteReplyTo bytes ∈ s'.log := by
  have hstands : s.correlator.Stands t p ((Downlink.system S).tally (Downlink.requests S) s as) :=
    ⟨before, after, hentry, by rw [Downlink.maxPending_eq h]; exact hroom⟩
  obtain ⟨hreach, hend⟩ := Downlink.Promised.exec h (.waiting hphase hstands rfl le_rfl) hrun
  refine ⟨fun hsilent => ?_, fun payload bytes hfirst hprepare hcount => ?_⟩
  · rw [hsilent] at hend
    cases hend with
    | waiting hphase' hstands' =>
      have hopen := (Downlink.replyPaths hreach).stands (.inr k) n t
        (congrArg ReplyPhase.hold hphase') hstands'.mem_topics
      exact ⟨hstands'.mem, hopen, hphase'⟩
    | received payload hfirst => cases hfirst
    | replied payload hfirst => cases hfirst
  · rw [hfirst] at hend
    cases hend with
    | waiting _ _ _ hleft =>
      rw [List.countP_nil] at hleft
      omega
    | received _ _ _ _ hleft =>
      rw [List.countP_nil] at hleft
      omega
    | replied payload' hfirst' hreplied =>
      obtain rfl := Option.some.inj hfirst'
      exact hreplied bytes hprepare

/-- The entry of the command that `ReplyWatch.gw01` has relayed. -/
def timelyEntry : Pending where
  siteReplyTo := "site/replies/7"
  correlationId := "42"
  deadline := 60000000000

/-- A second command is recorded, and the sweep comes by, before the reply to the first one has been
handled. -/
def timelyRun : List (DownlinkAction (Message Unit)) :=
  [.published 0 .ok, .publish "ecv1/gw-01/adapter/main/cmd/write" (.sample (some "site/replies/8")),
    .recv 0, .rewriteDownlink 0 "r-2" 1, .sweep 59000000000, .reply "r-1" (.sample none),
    .replyRecv 0, .subscribed 0 .ok, .handleReply 0]

/-- The reply of the sample run is relayed, and the entry of the second command stays. -/
theorem timely_reply_relayed_gw01 : ∃ (s' : Downlink (Message Unit)) (bytes : Message Unit),
    ReplyWatch.gw01.down.replyPumps 0 = .waiting "r-1" 0 ∧
    s'.correlator.pending.map Prod.fst = ["r-2"] ∧
    .replied "r-1" "site/replies/7" bytes ∈ s'.log := by
  have hsome : (((Downlink.system Setup.gw01).exec (Downlink.inTime timelyEntry)
      ReplyWatch.gw01.down timelyRun).map fun s => s.correlator.pending.map Prod.fst) =
        some ["r-2"] := by
    decide +kernel
  obtain ⟨s', hrun, hpending⟩ := Option.map_eq_some_iff.mp hsome
  have hphase : ReplyWatch.gw01.down.replyPumps 0 = .waiting "r-1" 0 := rfl
  have hentry : ReplyWatch.gw01.down.correlator.pending = [] ++ ("r-1", timelyEntry) :: [] := rfl
  have hrelayed := (timely_reply_relayed Setup.gw01 ReplyWatch.init_gw01.1 hphase hentry
    (by decide +kernel) hrun).2 _ _ rfl rfl (by decide +kernel)
  exact ⟨s', _, rfl, hpending, hrelayed⟩

end UnsBridge
