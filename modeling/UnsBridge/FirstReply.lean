import UnsBridge.ReplyPaths
import UnsBridge.ReplyRouting

/-!
# The first reply

`ReplyWatch` observes the downlink from the moment a reply pump waits on a topic: the payloads that
arrive on the topic, and the payloads that its entry is resolved for.  A reply pump receives once,
and takes the entry before it looks at the message, so that the first message that arrives settles
the command, whatever it is.  `first_reply_wins_iff` says that the first message that decodes is
the one that settles the command exactly if nothing else came before it.
-/

namespace UnsBridge

open Ownership Transition

variable {Bytes ρ : Type}

/-- The downlink, the payloads that arrived on one reply topic, and those that its entry was
resolved for, each with the site topic. -/
structure ReplyWatch (Bytes : Type) where
  down : Downlink Bytes
  arrived : List Bytes
  settled : List (Bytes × String)

namespace ReplyWatch

/-- The payload that a step brings to a topic. -/
def arrivals (t : String) : DownlinkAction Bytes → List Bytes
  | .reply t' payload => if t' = t then [payload] else []
  | _ => []

/-- The payload that a step resolves the entry of a topic for. -/
def settlements (t : String) (s : Downlink Bytes) : DownlinkAction Bytes → List (Bytes × String)
  | .handleReply k =>
    match s.replyPumps k with
    | .received t' payload =>
      if t' = t then (s.correlator.take t).1.toList.map fun site => (payload, site) else []
    | _ => []
  | _ => []

/-- One step of the downlink, with what is seen of it. -/
def step [Inhabited ρ] (S : Setup Bytes ρ) (t : String) (w : ReplyWatch Bytes)
    (a : DownlinkAction Bytes) : Option (ReplyWatch Bytes) :=
  (w.down.step S a).map fun (down, _) =>
    { down, arrived := w.arrived ++ arrivals t a, settled := w.settled ++ settlements t w.down a }

/-- The watched downlink, from any moment at which reply pump `k` waits on a topic whose entry
lives. -/
def system [Inhabited ρ] (S : Setup Bytes ρ) (k : ℕ) (t : String) :
    System (ReplyWatch Bytes) (DownlinkAction Bytes) where
  init w := (Downlink.system S).Reachable Downlink.FreshMints w.down ∧
    t ∈ w.down.correlator.topics ∧
    (∃ n, w.down.replyPumps k = .waiting t n ∧ w.arrived = w.down.inbox n) ∧ w.settled = []
  step w a := w.step S t a

/-- The steps that neither expire nor evict the entry of a topic: mints are fresh, and only the
handling of a reply takes the entry out of the map. -/
structure Unexpired [Inhabited ρ] (S : Setup Bytes ρ) (t : String) (w : ReplyWatch Bytes)
    (a : DownlinkAction Bytes) : Prop where
  fresh : Downlink.FreshMints w.down a
  kept : (∀ k, a ≠ .handleReply k) → t ∈ w.down.correlator.topics → ∀ w', w.step S t a = some w' →
    t ∈ w'.down.correlator.topics

/-- Reply pump `k` has nothing in hand and nothing to receive. -/
def Idle (k : ℕ) (t : String) (w : ReplyWatch Bytes) : Prop :=
  (∃ n, w.down.replyPumps k = .waiting t n ∧ w.down.inbox n = []) ∨ w.down.replyPumps k = .done

/-- Whether a payload decodes. -/
def decodes (S : Setup Bytes ρ) (payload : Bytes) : Bool := (S.codec.fromSlice payload).isSome

/-- The first message that decodes settles the command, and what else arrives does not: the entry
is resolved for it alone, with the site topic of the command, it is published there if it can be
prepared, and until it arrives the entry lives and its topic is subscribed. -/
structure FirstReplyWins [Inhabited ρ] (S : Setup Bytes ρ) (t site : String)
    (w : ReplyWatch Bytes) : Prop where
  settled : ∀ payload, w.arrived.find? (decodes S) = some payload →
    w.settled = [(payload, site)] ∧
      ∀ bytes, prepareReply S.engine S.codec payload = .forward bytes →
        .replied t site bytes ∈ w.down.log
  kept : (∀ payload ∈ w.arrived, decodes S payload = false) → w.settled = [] ∧
    t ∈ w.down.correlator.topics ∧ t ∈ w.down.subscriptions.map Prod.snd

/-! ### The stages of a reply path -/

/-- Where the reply path of a topic stands. -/
inductive Stage [Inhabited ρ] (S : Setup Bytes ρ) (k : ℕ) (t : String) (w : ReplyWatch Bytes) : Prop
  /-- The pump waits, and the first payload that arrived is the first of its inbox. -/
  | waiting (n : ℕ) (hphase : w.down.replyPumps k = .waiting t n)
      (hlive : t ∈ w.down.correlator.topics) (hfirst : (w.down.inbox n).head? = w.arrived.head?)
      (hsettled : w.settled = [])
  /-- The pump has received the first payload. -/
  | received (payload : Bytes) (hphase : w.down.replyPumps k = .received t payload)
      (hlive : t ∈ w.down.correlator.topics) (hfirst : w.arrived.head? = some payload)
      (hsettled : w.settled = [])
  /-- The entry has been resolved for the first payload. -/
  | handled (payload : Bytes) (c : Copy Bytes) (site : String)
      (hphase : w.down.replyPumps k = .publishing t ∨ w.down.replyPumps k = .settling t ∨
        w.down.replyPumps k = .done)
      (hgone : t ∉ w.down.correlator.topics) (hfirst : w.arrived.head? = some payload)
      (hsettled : w.settled = [(payload, site)]) (hrecorded : .recorded c t ∈ w.down.log)
      (hsite : S.Carries c.payload (some site))
      (hreplied : ∀ bytes, prepareReply S.engine S.codec payload = .forward bytes →
        .replied t site bytes ∈ w.down.log)

end ReplyWatch

namespace Downlink

variable [Inhabited ρ] {S : Setup Bytes ρ} {s s' : Downlink Bytes} {a : DownlinkAction Bytes}
  {bumps : List Bump}

/-- A reply pump that has been spawned goes on by its own steps only. -/
theorem Move.replyPumps_eq (hmove : Move S s a s' bumps) {k : ℕ} (hk : k ≠ s.nextReplyPump)
    (htask : a.task ≠ some (.replyPump k)) : s'.replyPumps k = s.replyPumps k := by
  cases hmove with
  | spawn i m t n hpump => exact Function.update_of_ne hk _ _
  | arrive j | close j | stray j | relay j | discard j | relayed j | settled j =>
    exact Function.update_of_ne (fun hkj => htask (by rw [hkj]; rfl)) _ _
  | _ => rfl

/-- A reply pump that has taken the entry publishes, unsubscribes and ends. -/
theorem Move.replyPumps_handled (hmove : Move S s a s' bumps) {k : ℕ} {t : String}
    (hk : k ≠ s.nextReplyPump) (hphase : s.replyPumps k = .publishing t ∨
      s.replyPumps k = .settling t ∨ s.replyPumps k = .done) :
    s'.replyPumps k = .publishing t ∨ s'.replyPumps k = .settling t ∨ s'.replyPumps k = .done := by
  by_cases htask : a.task = some (.replyPump k)
  · cases hmove with
    | arrive j _ _ _ _ hj | close j _ _ hj | stray j _ _ hj | relay j _ _ _ _ _ _ hj
    | discard j _ _ _ _ _ _ hj =>
      obtain rfl : j = k := by simpa [DownlinkAction.task] using htask
      simp [hj] at hphase
    | relayed j outcome t' b hj =>
      obtain rfl : j = k := by simpa [DownlinkAction.task] using htask
      obtain rfl : t' = t := by simpa [hj] using hphase
      exact Or.inr (Or.inl (Function.update_self _ _ _))
    | settled j outcome t' hj =>
      obtain rfl : j = k := by simpa [DownlinkAction.task] using htask
      exact Or.inr (Or.inr (Function.update_self _ _ _))
    | _ => simp [DownlinkAction.task] at htask
  · rw [hmove.replyPumps_eq hk htask]
    exact hphase

/-- What a reply pump receives is the first message of its inbox. -/
theorem replyRecv_eq_some {j : ℕ} (h : s.step S (.replyRecv j) = some (s', bumps)) :
    ∃ t n payload rest, s.replyPumps j = .waiting t n ∧ s.inbox n = payload :: rest ∧
      s'.inbox = Function.update s.inbox n rest ∧ s'.replyPumps j = .received t payload := by
  simp only [step, replyRecv] at h
  cases hphase : s.replyPumps j with
  | waiting t n =>
    simp only [hphase] at h
    split at h
    · cases h
    · rename_i payload rest hinbox
      cases h
      exact ⟨t, n, payload, rest, rfl, hinbox, rfl, Function.update_self _ _ _⟩
  | _ => simp [hphase] at h

/-- An inbox changes by a publish on its topic and by the pump that receives from it. -/
theorem Move.inbox_eq (hmove : Move S s a s' bumps) (hreply : ∀ t payload, a ≠ .reply t payload)
    (hrecv : ∀ j, a ≠ .replyRecv j) : s'.inbox = s.inbox := by
  cases hmove with
  | reply t payload => exact absurd rfl (hreply t payload)
  | arrive j => exact absurd rfl (hrecv j)
  | _ => rfl

/-- A reply whose entry lives is resolved. -/
theorem handleReply_of_live {k : ℕ} {t site : String} {payload : Bytes}
    (hphase : s.replyPumps k = .received t payload) (htake : (s.correlator.take t).1 = some site)
    (h : s.step S (.handleReply k) = some (s', bumps)) :
    (s'.replyPumps k = .publishing t ∨ s'.replyPumps k = .settling t) ∧
      s'.correlator = (s.correlator.take t).2 ∧ s.log ⊆ s'.log ∧
      ∀ bytes, prepareReply S.engine S.codec payload = .forward bytes →
        .replied t site bytes ∈ s'.log := by
  have hmap : s.log ⊆ s'.log := (step_move h).subset_log
  obtain ⟨correlator, hcorrelator⟩ : ∃ c, s.correlator.take t = (some site, c) :=
    ⟨_, Prod.ext htake rfl⟩
  simp only [step, handleReply, hphase, hcorrelator] at h
  cases hprepare : prepareReply S.engine S.codec payload with
  | forward bytes =>
    simp only [hprepare, Option.some.injEq, Prod.mk.injEq] at h
    obtain ⟨rfl, rfl⟩ := h
    refine ⟨Or.inl (Function.update_self _ _ _), by simp [hcorrelator, record, setReplyPump], hmap,
      fun bytes' heq => ?_⟩
    cases heq
    simp [record]
  | drop reason =>
    simp only [hprepare, Option.some.injEq, Prod.mk.injEq] at h
    obtain ⟨rfl, rfl⟩ := h
    exact ⟨Or.inr (Function.update_self _ _ _), by simp [hcorrelator, record, setReplyPump], hmap,
      fun bytes heq => by cases heq⟩

end Downlink

namespace ReplyWatch

variable [Inhabited ρ] {S : Setup Bytes ρ} {k n : ℕ} {t : String} {w w' : ReplyWatch Bytes}
  {a : DownlinkAction Bytes}

/-- What a step of the watched downlink does. -/
theorem step_eq_some (h : w.step S t a = some w') : ∃ bumps,
    w.down.step S a = some (w'.down, bumps) ∧ w'.arrived = w.arrived ++ arrivals t a ∧
      w'.settled = w.settled ++ settlements t w.down a := by
  obtain ⟨⟨down, bumps⟩, hstep, rfl⟩ := Option.map_eq_some_iff.mp h
  exact ⟨bumps, hstep, rfl, rfl⟩

/-- Nothing is settled by a step that resolves no reply on the topic. -/
theorem settlements_eq_nil (h : ∀ j payload, a = .handleReply j →
    w.down.replyPumps j ≠ .received t payload) : settlements t w.down a = [] := by
  cases a with
  | handleReply j =>
    cases hphase : w.down.replyPumps j with
    | received t' payload =>
      have hne : t' ≠ t := fun heq => h j payload rfl (heq ▸ hphase)
      simp [settlements, hphase, hne]
    | _ => simp [settlements, hphase]
  | _ => rfl

/-- The entry of a topic stays if no reply on the topic is resolved. -/
theorem Unexpired.live (h : Unexpired S t w a) (hstep : w.step S t a = some w')
    (hnot : ∀ j payload, a = .handleReply j → w.down.replyPumps j ≠ .received t payload)
    (hlive : t ∈ w.down.correlator.topics) : t ∈ w'.down.correlator.topics := by
  by_cases hreply : ∃ j, a = .handleReply j
  · obtain ⟨j, rfl⟩ := hreply
    obtain ⟨bumps, hdown, -, -⟩ := step_eq_some hstep
    have hleave : ∀ {t' : String} {p : Pending} {before after : List (String × Pending)},
        w.down.correlator.pending = before ++ (t', p) :: after → t' ≠ t →
          t ∈ (before ++ after).map Prod.fst := by
      intro t' p before after hpending hne
      simpa [ReplyCorrelator.topics, hpending, hne.symm] using hlive
    generalize w'.down = s' at hdown ⊢
    cases Downlink.step_move hdown with
    | stray => exact hlive
    | relay j t' payload bytes p before after hphase hpending =>
      exact hleave hpending fun heq => hnot j payload rfl (heq ▸ hphase)
    | discard j t' payload reason p before after hphase hpending =>
      exact hleave hpending fun heq => hnot j payload rfl (heq ▸ hphase)
  · exact h.kept (fun j hj => hreply ⟨j, hj⟩) hlive w' hstep

/-- A topic has one reply pump. -/
theorem eq_of_topic (hpaths : w.down.ReplyPaths) {phase phase' : ReplyPhase Bytes} {j : ℕ}
    (hk : w.down.replyPumps k = phase) (hj : w.down.replyPumps j = phase')
    (hphase : phase.topic = some t) (hphase' : phase'.topic = some t) : j = k :=
  Sum.inr.inj (hpaths.topics.unique (.inr j) (.inr k) t
    ((congrArg ReplyPhase.topic hj).trans hphase') ((congrArg ReplyPhase.topic hk).trans hphase))

/-- The inbox of a pump that waits keeps its first message, and gets the first one that arrives. -/
theorem head?_inbox (hpaths : w.down.ReplyPaths) (hphase : w.down.replyPumps k = .waiting t n)
    (hlive : t ∈ w.down.correlator.topics) (hfirst : (w.down.inbox n).head? = w.arrived.head?)
    (htask : a.task ≠ some (.replyPump k)) {bumps : List Bump}
    (hstep : w.down.step S a = some (w'.down, bumps)) :
    (w'.down.inbox n).head? = (w.arrived ++ arrivals t a).head? := by
  have hopen : (n, t) ∈ w.down.subscriptions :=
    hpaths.stands (.inr k) n t (congrArg ReplyPhase.hold hphase) hlive
  cases a with
  | reply t' payload =>
    obtain ⟨hreply, -⟩ := Prod.mk.inj (Option.some.inj hstep)
    rw [← hreply]
    by_cases ht : t' = t
    · subst ht
      cases hinbox : w.down.inbox n with
      | nil =>
        have hnone : w.arrived = [] := by simpa [hinbox, eq_comm] using hfirst
        simp [Downlink.reply, hopen, hinbox, hnone, arrivals]
      | cons payload' rest =>
        simp [Downlink.reply, hinbox, ← hfirst, arrivals]
    · have hclosed : (n, t') ∉ w.down.subscriptions := fun hmem =>
        ht (hpaths.one n t' t hmem hopen)
      simp [Downlink.reply, hclosed, ht, arrivals, hfirst]
  | replyRecv j =>
    obtain ⟨t', n', payload, rest, hphase', hinbox, hrest, -⟩ := Downlink.replyRecv_eq_some hstep
    have hne : n ≠ n' := by
      rintro rfl
      have hjk : Sum.inr j = Sum.inr k := hpaths.handles.unique (.inr j) (.inr k) n
        (Downlink.handleOwners_of_holds (congrArg ReplyPhase.hold hphase'))
        (Downlink.handleOwners_of_holds (congrArg ReplyPhase.hold hphase))
      exact htask (by rw [Sum.inr.inj hjk]; rfl)
    simpa [hrest, hne, arrivals] using hfirst
  | _ =>
    have hinbox := (Downlink.step_move hstep).inbox_eq (by simp) (by simp)
    simpa [hinbox, arrivals] using hfirst

/-- The entry of a live topic, with the command that the topic was recorded for. -/
theorem exists_site (hrouted : w.down.Routed S) (hlive : t ∈ w.down.correlator.topics) :
    ∃ site c, (w.down.correlator.take t).1 = some site ∧ .recorded c t ∈ w.down.log ∧
      S.Carries c.payload (some site) := by
  cases htake : (w.down.correlator.take t).1 with
  | none => exact absurd hlive (ReplyCorrelator.take_eq_none htake).1
  | some site =>
    obtain ⟨before, p, after, hpending, -, rfl, -⟩ := ReplyCorrelator.take_eq_some htake
    obtain ⟨c, hrecorded, hcarries⟩ := hrouted.pending (t, p) (by simp [hpending])
    exact ⟨p.siteReplyTo, c, rfl, hrecorded, hcarries⟩

/-- A taken topic has no entry any more. -/
theorem notMem_take {s : Downlink Bytes} {site : String} (hkeys : s.Keys)
    (htake : (s.correlator.take t).1 = some site) : t ∉ (s.correlator.take t).2.topics := by
  obtain ⟨before, p, after, hpending, -, -, hkept⟩ := ReplyCorrelator.take_eq_some htake
  have hperm : s.correlator.topics.Perm (t :: (before ++ after).map Prod.fst) := by
    simp only [ReplyCorrelator.topics, hpending, List.map_append, List.map_cons]
    exact List.perm_middle
  rw [hkept]
  exact (List.nodup_cons.mp (hperm.nodup_iff.mp hkeys.nodup)).1

/-- A pump that waits goes on. -/
theorem Stage.of_waiting (hpaths : w.down.ReplyPaths) (hk : k ≠ w.down.nextReplyPump)
    (hguard : Unexpired S t w a) (hphase : w.down.replyPumps k = .waiting t n)
    (hlive : t ∈ w.down.correlator.topics) (hfirst : (w.down.inbox n).head? = w.arrived.head?)
    (hsettled : w.settled = []) (hstep : w.step S t a = some w') : Stage S k t w' := by
  obtain ⟨bumps, hdown, harrived', hsettled'⟩ := step_eq_some hstep
  have hnot : ∀ j payload, a = .handleReply j → w.down.replyPumps j ≠ .received t payload := by
    intro j payload ha hj
    obtain rfl := eq_of_topic hpaths hphase hj rfl rfl
    rw [hphase] at hj
    cases hj
  have hlive' := hguard.live hstep hnot hlive
  rw [settlements_eq_nil hnot, hsettled, List.nil_append] at hsettled'
  by_cases htask : a.task = some (.replyPump k)
  · cases a with
    | replyRecv j =>
      obtain rfl : j = k := by simpa [DownlinkAction.task] using htask
      obtain ⟨t', n', payload, rest, hj, hinbox, -, hj'⟩ := Downlink.replyRecv_eq_some hdown
      rw [hphase] at hj
      cases hj
      refine .received payload hj' hlive' ?_ hsettled'
      simp [harrived', arrivals, ← hfirst, hinbox]
    | replyClosed j =>
      obtain rfl : j = k := by simpa [DownlinkAction.task] using htask
      have hopen := hpaths.stands (.inr j) n t (congrArg ReplyPhase.hold hphase) hlive
      simp [Downlink.step, Downlink.replyClosed, hphase, hopen] at hdown
    | handleReply j | replyPublished j | replySettled j =>
      obtain rfl : j = k := by simpa [DownlinkAction.task] using htask
      simp [Downlink.step, Downlink.handleReply, Downlink.replyPublished, Downlink.replySettled,
        hphase] at hdown
    | _ => simp [DownlinkAction.task] at htask
  · have hphase' := ((Downlink.step_move hdown).replyPumps_eq hk htask).trans hphase
    refine .waiting n hphase' hlive' ?_ hsettled'
    rw [harrived']
    exact head?_inbox hpaths hphase hlive hfirst htask hdown

/-- A pump that has received goes on. -/
theorem Stage.of_received (hpaths : w.down.ReplyPaths) (hrouted : w.down.Routed S)
    (hk : k ≠ w.down.nextReplyPump) (hguard : Unexpired S t w a) {payload : Bytes}
    (hphase : w.down.replyPumps k = .received t payload) (hlive : t ∈ w.down.correlator.topics)
    (hfirst : w.arrived.head? = some payload) (hsettled : w.settled = [])
    (hstep : w.step S t a = some w') : Stage S k t w' := by
  obtain ⟨bumps, hdown, harrived', hsettled'⟩ := step_eq_some hstep
  have hfirst' : w'.arrived.head? = some payload := by
    rw [harrived', List.head?_append, hfirst]
    rfl
  by_cases htask : a.task = some (.replyPump k)
  · cases a with
    | handleReply j =>
      obtain rfl : j = k := by simpa [DownlinkAction.task] using htask
      obtain ⟨site, c, htake, hrecorded, hsite⟩ := exists_site hrouted hlive
      obtain ⟨hphase', hcorrelator, hlog, hreplied⟩ :=
        Downlink.handleReply_of_live hphase htake hdown
      refine .handled payload c site (hphase'.imp id Or.inl) ?_ hfirst' ?_ (hlog hrecorded) hsite
        hreplied
      · rw [hcorrelator]
        exact notMem_take hpaths.keys htake
      · simp [hsettled', hsettled, settlements, hphase, htake]
    | replyRecv j | replyClosed j | replyPublished j | replySettled j =>
      obtain rfl : j = k := by simpa [DownlinkAction.task] using htask
      simp [Downlink.step, Downlink.replyRecv, Downlink.replyClosed, Downlink.replyPublished,
        Downlink.replySettled, hphase] at hdown
    | _ => simp [DownlinkAction.task] at htask
  · have hnot : ∀ j payload, a = .handleReply j → w.down.replyPumps j ≠ .received t payload := by
      intro j payload' ha hj
      obtain rfl := eq_of_topic hpaths hphase hj rfl rfl
      exact htask (by rw [ha]; rfl)
    have hphase' := ((Downlink.step_move hdown).replyPumps_eq hk htask).trans hphase
    refine .received payload hphase' (hguard.live hstep hnot hlive) hfirst' ?_
    rw [hsettled', hsettled, settlements_eq_nil hnot, List.nil_append]

/-- A topic without an entry settles nothing. -/
theorem settlements_of_gone (hgone : t ∉ w.down.correlator.topics) :
    settlements t w.down a = [] := by
  cases a with
  | handleReply j =>
    cases hphase : w.down.replyPumps j with
    | received t' payload =>
      by_cases ht : t' = t
      · cases htake : (w.down.correlator.take t).1 with
        | none => simp [settlements, hphase, htake]
        | some site =>
          obtain ⟨before, p, after, hpending, -⟩ := ReplyCorrelator.take_eq_some htake
          exact absurd (by simp [ReplyCorrelator.topics, hpending]) hgone
      · simp [settlements, hphase, ht]
    | _ => simp [settlements, hphase]
  | _ => rfl

/-- A pump that has resolved the entry goes on. -/
theorem Stage.of_handled (hk : k ≠ w.down.nextReplyPump)
    (hguard : Unexpired S t w a) {payload : Bytes} {c : Copy Bytes} {site : String}
    (hphase : w.down.replyPumps k = .publishing t ∨ w.down.replyPumps k = .settling t ∨
      w.down.replyPumps k = .done)
    (hgone : t ∉ w.down.correlator.topics) (hfirst : w.arrived.head? = some payload)
    (hsettled : w.settled = [(payload, site)]) (hrecorded : .recorded c t ∈ w.down.log)
    (hsite : S.Carries c.payload (some site))
    (hreplied : ∀ bytes, prepareReply S.engine S.codec payload = .forward bytes →
      .replied t site bytes ∈ w.down.log)
    (hstep : w.step S t a = some w') : Stage S k t w' := by
  obtain ⟨bumps, hdown, harrived', hsettled'⟩ := step_eq_some hstep
  have hmove := Downlink.step_move hdown
  have hlog := hmove.subset_log
  have htopic : t ∈ w.down.recordedTopics :=
    List.mem_map.mpr ⟨(c, t), Downlink.mem_recordings.mpr hrecorded, rfl⟩
  refine .handled payload c site ?_ (hmove.map.notMem_topics hguard.fresh htopic hgone) ?_ ?_
    (hlog hrecorded) hsite fun bytes hprepare => hlog (hreplied bytes hprepare)
  · exact hmove.replyPumps_handled hk hphase
  · rw [harrived', List.head?_append, hfirst]
    rfl
  · rw [hsettled', hsettled, settlements_of_gone hgone, List.append_nil]

/-- The downlink of a watched run is in a run with fresh mints. -/
theorem reachable_down (h : (system S k t).Reachable (Unexpired S t) w) :
    (Downlink.system S).Reachable Downlink.FreshMints w.down := by
  induction h with
  | init h => exact h.1
  | step _ hguard hs ih =>
    obtain ⟨bumps, hdown, -, -⟩ := step_eq_some hs
    exact .step ih hguard.fresh (Option.map_eq_some_iff.mpr ⟨_, hdown, rfl⟩)

/-- The reply path of the topic stands at one of the stages in every state of every run. -/
theorem stage (hc : S.codec.Lawful) (h : (system S k t).Reachable (Unexpired S t) w) :
    Stage S k t w := by
  induction h with
  | init h =>
    obtain ⟨-, hlive, ⟨n, hphase, harrived⟩, hsettled⟩ := h
    exact .waiting n hphase hlive (by rw [harrived]) hsettled
  | @step w w' a hreach hguard hs ih =>
    have hdown := reachable_down hreach
    have hpaths := Downlink.replyPaths hdown
    have habsent := (Downlink.books hdown).absent _ le_rfl
    have hk : ∀ {phase : ReplyPhase Bytes}, w.down.replyPumps k = phase → phase ≠ .absent →
        k ≠ w.down.nextReplyPump := by
      rintro phase hphase hne rfl
      exact hne (hphase.symm.trans habsent)
    cases ih with
    | waiting n hphase hlive hfirst hsettled =>
      exact .of_waiting hpaths (hk hphase (by simp)) hguard hphase hlive hfirst hsettled hs
    | received payload hphase hlive hfirst hsettled =>
      exact .of_received hpaths (Downlink.routed hc hdown) (hk hphase (by simp)) hguard hphase
        hlive hfirst hsettled hs
    | handled payload c site hphase hgone hfirst hsettled hrecorded hsite hreplied =>
      have hspawned : k ≠ w.down.nextReplyPump := by
        rcases hphase with hphase | hphase | hphase <;> exact hk hphase (by simp)
      exact .of_handled hspawned hguard hphase hgone hfirst hsettled hrecorded hsite
        hreplied hs

end ReplyWatch

/-- The first message wins, and not the first one that decodes.  With a lawful codec, take any run
with fresh mints, any reply pump in it that waits on the topic `t` of a live entry, and any run from
there in which the entry is neither expired nor evicted, whatever arrives on the topic and whatever
the other tasks do, up to a state in which the reply pump has dealt with all that arrived.  If `t`
was recorded for a command whose `reply_to` is `site`, the first message that decodes settles that
command, and nothing before it does, exactly if no message that does not decode arrives first. -/
theorem first_reply_wins_iff [Inhabited ρ] (S : Setup Bytes ρ) (hc : S.codec.Lawful) {k : ℕ}
    {t site : String} {c : Copy Bytes} {w : ReplyWatch Bytes}
    (h : (ReplyWatch.system S k t).Reachable (ReplyWatch.Unexpired S t) w) (hidle : w.Idle k t)
    (hrecorded : .recorded c t ∈ w.down.log) (hsite : S.Carries c.payload (some site)) :
    w.FirstReplyWins S t site ↔
      ∀ payload, w.arrived.head? = some payload → ReplyWatch.decodes S payload = true := by
  have hpaths := Downlink.replyPaths (ReplyWatch.reachable_down h)
  cases ReplyWatch.stage hc h with
  | waiting n hphase hlive hfirst hsettled =>
    -- nothing has arrived
    have hinbox : w.down.inbox n = [] := by
      rcases hidle with ⟨n', hphase', hinbox⟩ | hdone
      · rw [hphase] at hphase'
        cases hphase'
        exact hinbox
      · simp [hphase] at hdone
    have harrived : w.arrived = [] := by simpa [hinbox, eq_comm] using hfirst
    have hopen := hpaths.stands (.inr k) n t (congrArg ReplyPhase.hold hphase) hlive
    refine ⟨fun _ payload hp => by simp [harrived] at hp, fun _ => ⟨?_, fun _ => ?_⟩⟩
    · exact fun payload hp => by simp [harrived] at hp
    · exact ⟨hsettled, hlive, List.mem_map_of_mem hopen⟩
  | received payload hphase =>
    rcases hidle with ⟨n', hphase', -⟩ | hdone
    · simp [hphase] at hphase'
    · simp [hphase] at hdone
  | handled payload c' site' hphase hgone hfirst hsettled hrecorded' hsite' hreplied =>
    obtain ⟨rest, harrived⟩ : ∃ rest, w.arrived = payload :: rest :=
      List.head?_eq_some_iff.mp hfirst
    constructor
    · intro hwins payload' hp
      obtain rfl : payload = payload' := Option.some.inj (hfirst.symm.trans hp)
      cases hfind : w.arrived.find? (ReplyWatch.decodes S) with
      | none =>
        have hnone := List.find?_eq_none.mp hfind
        exact absurd (hwins.kept fun q hq => by simpa using hnone q hq).2.1 hgone
      | some q =>
        have hone := (hwins.settled q hfind).1
        rw [hsettled, List.singleton_inj, Prod.mk.injEq] at hone
        exact hone.1 ▸ List.find?_some hfind
    · intro hdecodes
      have hfirst' : ReplyWatch.decodes S payload = true := hdecodes payload hfirst
      obtain rfl : c' = c := hpaths.keys.copy_unique hrecorded' hrecorded
      obtain rfl : site' = site := Option.some.inj (Setup.carries_unique hsite' hsite)
      refine ⟨fun q hq => ?_, fun hnone => ?_⟩
      · rw [harrived, List.find?_cons_of_pos hfirst', Option.some.injEq] at hq
        exact hq ▸ ⟨hsettled, hreplied⟩
      · exact absurd (hnone payload (by simp [harrived])) (by simp [hfirst'])

/-! ### Two runs on a reply topic -/

/-- Whether a step mints a topic that was not recorded before. -/
def Downlink.isFresh (s : Downlink Bytes) : DownlinkAction Bytes → Bool
  | .rewriteDownlink _ mint _ => mint ∉ s.recordedTopics
  | _ => true

/-- A step that passes the test mints a fresh topic. -/
theorem Downlink.freshMints_of_isFresh (s : Downlink Bytes) (a : DownlinkAction Bytes)
    (h : s.isFresh a = true) : s.FreshMints a := by
  rintro i mint now rfl
  simpa [isFresh] using h

namespace ReplyWatch

/-- Whether a step leaves the entry of a topic in the map, and mints no topic twice. -/
def isUnexpired [Inhabited ρ] (S : Setup Bytes ρ) (t : String) (w : ReplyWatch Bytes)
    (a : DownlinkAction Bytes) : Bool :=
  w.down.isFresh a && match a with
    | .handleReply _ => true
    | a => t ∉ w.down.correlator.topics ||
      (w.step S t a).all fun w' => t ∈ w'.down.correlator.topics

/-- A step that passes the test does not expire the entry. -/
theorem unexpired_of_isUnexpired [Inhabited ρ] (S : Setup Bytes ρ) (t : String)
    (w : ReplyWatch Bytes) (a : DownlinkAction Bytes) (h : isUnexpired S t w a = true) :
    Unexpired S t w a := by
  obtain ⟨hfresh, hkept⟩ := Bool.and_eq_true_iff.mp h
  refine ⟨Downlink.freshMints_of_isFresh _ _ hfresh, fun hnot hlive w' hstep => ?_⟩
  cases a with
  | handleReply k => exact absurd rfl (hnot k)
  | _ => simpa [hstep, hlive] using hkept

/-- A command with a reply path is relayed, and its reply pump waits. -/
def commandRun : List (DownlinkAction (Message Unit)) :=
  [.publish "ecv1/gw-01/adapter/main/cmd/write" (.sample (some "site/replies/7")), .recv 0,
    .rewriteDownlink 0 "r-1" 0, .subscribed 0 .ok, .check 0]

/-- The command that is relayed. -/
def command : Copy (Message Unit) where
  publish := 0
  subscription := 0
  topic := "ecv1/gw-01/adapter/main/cmd/write"
  payload := .sample (some "site/replies/7")

/-- A payload that does not decode. -/
def garbage : Message Unit := { Message.sample none with raw := some .null }

/-- The downlink of `gw-01` when the reply pump waits. -/
def gw01 : ReplyWatch (Message Unit) where
  down := ((Downlink.system Setup.gw01).exec Downlink.isFresh (.start Setup.gw01) commandRun).get
    rfl
  arrived := []
  settled := []

/-- The watch starts there. -/
theorem init_gw01 : (system Setup.gw01 0 "r-1").init gw01 := by
  obtain ⟨s, hs, hobs⟩ := System.exists_reachable_of_exec (M := Downlink.system Setup.gw01)
    Downlink.isFresh Downlink.freshMints_of_isFresh (.init rfl) commandRun id (x := gw01.down) rfl
  exact ⟨hobs ▸ hs, by decide, ⟨0, rfl, rfl⟩, rfl⟩

/-- A reply arrives and is relayed. -/
def replyRun : List (DownlinkAction (Message Unit)) :=
  [.reply "r-1" (.sample none), .replyRecv 0, .handleReply 0, .replyPublished 0 .ok,
    .replySettled 0 .ok]

/-- A payload that does not decode arrives before the reply. -/
def garbageRun : List (DownlinkAction (Message Unit)) :=
  [.reply "r-1" garbage, .replyRecv 0, .handleReply 0, .replySettled 0 .ok,
    .reply "r-1" (.sample none)]

end ReplyWatch

/-- A message that does not decode settles the command, and the reply that comes after it is lost.
-/
theorem garbage_settles_command : ¬ ∀ w : ReplyWatch (Message Unit),
    (ReplyWatch.system Setup.gw01 0 "r-1").Reachable (ReplyWatch.Unexpired Setup.gw01 "r-1") w →
      w.Idle 0 "r-1" → w.FirstReplyWins Setup.gw01 "r-1" "site/replies/7" := by
  intro hall
  obtain ⟨w, hw, hobs⟩ := System.exists_reachable_of_exec
    (M := ReplyWatch.system Setup.gw01 0 "r-1") (ReplyWatch.isUnexpired Setup.gw01 "r-1")
    (ReplyWatch.unexpired_of_isUnexpired Setup.gw01 "r-1") (.init ReplyWatch.init_gw01)
    ReplyWatch.garbageRun (fun w => (w.arrived, w.settled, w.down.replyPumps 0))
    (x := ([ReplyWatch.garbage, .sample none], [(ReplyWatch.garbage, "site/replies/7")], .done)) rfl
  obtain ⟨harrived, hobs⟩ := Prod.mk.inj hobs
  obtain ⟨hsettled, hdone⟩ := Prod.mk.inj hobs
  have hfind : w.arrived.find? (ReplyWatch.decodes Setup.gw01) = some (.sample none) := by
    rw [harrived]
    rfl
  have hone := ((hall w hw (Or.inr hdone)).settled _ hfind).1
  rw [hsettled] at hone
  cases hone

/-- A reply that is the first message wins. -/
theorem first_reply_wins_gw01 : ∃ w : ReplyWatch (Message Unit),
    w.arrived = [.sample none] ∧ w.FirstReplyWins Setup.gw01 "r-1" "site/replies/7" := by
  obtain ⟨w, hw, hobs⟩ := System.exists_reachable_of_exec
    (M := ReplyWatch.system Setup.gw01 0 "r-1") (ReplyWatch.isUnexpired Setup.gw01 "r-1")
    (ReplyWatch.unexpired_of_isUnexpired Setup.gw01 "r-1") (.init ReplyWatch.init_gw01)
    ReplyWatch.replyRun (fun w => (w.arrived, w.down.replyPumps 0, w.down.recordings))
    (x := ([.sample none], .done, [(ReplyWatch.command, "r-1")])) rfl
  obtain ⟨harrived, hobs⟩ := Prod.mk.inj hobs
  obtain ⟨hdone, hrecordings⟩ := Prod.mk.inj hobs
  have hrecorded : .recorded ReplyWatch.command "r-1" ∈ w.down.log :=
    Downlink.mem_recordings.mp (by simp [hrecordings])
  refine ⟨w, harrived, (first_reply_wins_iff Setup.gw01 (Codec.plain_lawful Unit) hw (Or.inr hdone)
    hrecorded ⟨_, rfl, rfl⟩).mpr fun payload hp => ?_⟩
  rw [harrived, List.head?_cons, Option.some.injEq] at hp
  exact hp ▸ rfl

end UnsBridge
