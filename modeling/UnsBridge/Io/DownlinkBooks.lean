import UnsBridge.Io.DownlinkMoves

/-!
# The books of the downlink

What the steps of the downlink do to its pumps.  `PumpStep` is the life of one pump between two
receptions, with the events it logs, and `Move.pump` shows that a step of the downlink either leaves
the pumps alone, lets one receive a command, or lets one go through a step of its life.

A kind of event that happens at most once for a command is tracked by what has happened and what is
still to happen: `Tracks` says that for each subscription both together are some of the commands
that it received, in their order.  The publishes and the recordings of commands are tracked in every
run, `Downlink.books`.
-/

namespace UnsBridge

open Transition

variable {Bytes ρ : Type} [Inhabited ρ]

/-- The command that an event is about, if a pump logs it. -/
def DownlinkEvent.copy : DownlinkEvent Bytes → Option (Copy Bytes)
  | .recorded c _ | .commanded c _ => some c
  | _ => none

/-- The command that an event publishes on the device bus. -/
def DownlinkEvent.commandedCopy : DownlinkEvent Bytes → Option (Copy Bytes)
  | .commanded c _ => some c
  | _ => none

/-- The recording that an event is: a command, and the bridge topic minted for it. -/
def DownlinkEvent.recording : DownlinkEvent Bytes → Option (Copy Bytes × String)
  | .recorded c t => some (c, t)
  | _ => none

/-- The command that an event records. -/
def DownlinkEvent.recordedCopy (e : DownlinkEvent Bytes) : Option (Copy Bytes) :=
  e.recording.map Prod.fst

/-- The command that a pump has yet to publish. -/
def DownlinkPhase.unpublished : DownlinkPhase Bytes → List (Copy Bytes)
  | .forwarded m | .expiring _ m _ | .subscribing m _ | .checking m _ _ | .dropping m _ => [m.copy]
  | .idle | .publishing _ | .dead => []

/-- The command that a pump has yet to record. -/
def DownlinkPhase.unrecorded : DownlinkPhase Bytes → List (Copy Bytes)
  | .forwarded m => [m.copy]
  | _ => []

/-- A step of a pump that holds a command, with the events it logs. -/
inductive PumpStep : DownlinkPhase Bytes → List (DownlinkEvent Bytes) → DownlinkPhase Bytes → Prop
  | pass (m : Command Bytes) :
      PumpStep (.forwarded m) [.commanded m.copy m.bytes] (.publishing m)
  | malformed (m : Command Bytes) : PumpStep (.forwarded m) [] .idle
  | record (m : Command Bytes) (bytes : Bytes) (t : String) :
      PumpStep (.forwarded m) [.recorded m.copy t] (.subscribing { m with bytes } t)
  | replace (m : Command Bytes) (bytes : Bytes) (oldest t : String) :
      PumpStep (.forwarded m) [.recorded m.copy t] (.expiring oldest { m with bytes } t)
  | panic (m : Command Bytes) : PumpStep (.forwarded m) [] .dead
  | expired (m : Command Bytes) (oldest t : String) :
      PumpStep (.expiring oldest m t) [] (.subscribing m t)
  | subscribe (m : Command Bytes) (t : String) (k : ℕ) :
      PumpStep (.subscribing m t) [.subscribed t] (.checking m t k)
  | abandon (m : Command Bytes) (t : String) : PumpStep (.subscribing m t) [] .idle
  | spawn (m : Command Bytes) (t : String) (k : ℕ) :
      PumpStep (.checking m t k) [.commanded m.copy m.bytes] (.publishing m)
  | undo (m : Command Bytes) (t : String) (k : ℕ) : PumpStep (.checking m t k) [] (.dropping m t)
  | dropped (m : Command Bytes) (t : String) :
      PumpStep (.dropping m t) [.commanded m.copy m.bytes] (.publishing m)
  | settle (m : Command Bytes) : PumpStep (.publishing m) [] .idle

namespace Downlink

/-- What a step of the downlink does to its pumps. -/
inductive PumpMove (s s' : Downlink Bytes) : Prop
  /-- Nothing; events of other tasks may be logged. -/
  | keep (es : List (DownlinkEvent Bytes)) (hpumps : s'.pumps = s.pumps)
      (hreceived : s'.bus.received = s.bus.received) (hlog : s'.log = s.log ++ es)
      (hes : ∀ e ∈ es, e.copy = none)
  /-- A pump receives a command that it does not forward. -/
  | refuse (c : Copy Bytes) (hpumps : s'.pumps = s.pumps)
      (hreceived : s'.bus.received = s.bus.received ++ [c]) (hlog : s'.log = s.log)
  /-- A pump receives a command. -/
  | forward (i : ℕ) (c : Copy Bytes) (bytes : Bytes) (hidle : s.pumps i = .idle)
      (hsub : c.subscription = i)
      (hpumps : s'.pumps = Function.update s.pumps i (.forwarded { copy := c, bytes }))
      (hreceived : s'.bus.received = s.bus.received ++ [c]) (hlog : s'.log = s.log)
  /-- A pump goes on with its command. -/
  | advance (i : ℕ) (es : List (DownlinkEvent Bytes)) (phase : DownlinkPhase Bytes)
      (hstep : PumpStep (s.pumps i) es phase) (hpumps : s'.pumps = Function.update s.pumps i phase)
      (hreceived : s'.bus.received = s.bus.received) (hlog : s'.log = s.log ++ es)

variable {S : Setup Bytes ρ} {s s' : Downlink Bytes} {a : DownlinkAction Bytes} {bumps : List Bump}

/-- Every step of the downlink is one of these. -/
theorem Move.pump (hbus : s.bus.Sound S.siteSubscriptions) (h : Move S s a s' bumps) :
    PumpMove s s' := by
  have hnil : s.log = s.log ++ [] := (List.append_nil _).symm
  cases h with
  | publish => exact .keep [] rfl rfl hnil (by simp)
  | refuse i c bus reason hpump hrecv => exact .refuse c rfl (Bus.recv_eq_some hrecv).2.1 rfl
  | forward i c bus bytes hpump hrecv =>
    obtain ⟨-, hreceived, rest, hqueue, -⟩ := Bus.recv_eq_some hrecv
    have hsub := (hbus.faithful i c (by simp [Bus.log, hqueue])).1
    exact .forward i c bytes hpump hsub rfl hreceived rfl
  | pass i mint now m msg hpump => exact .advance i _ _ (hpump ▸ .pass m) rfl rfl rfl
  | malformed i mint now m hpump => exact .advance i [] _ (hpump ▸ .malformed m) rfl rfl hnil
  | record i mint now m msg site bytes hpump =>
    exact .advance i _ _ (hpump ▸ .record m bytes mint) rfl rfl rfl
  | replace i mint now m msg site bytes oldest p rest hpump =>
    exact .advance i _ _ (hpump ▸ .replace m bytes oldest mint) rfl rfl rfl
  | panic i mint now m pending hpump => exact .advance i [] _ (hpump ▸ .panic m) rfl rfl hnil
  | expired i outcome oldest m t hpump =>
    exact .advance i [] _ (hpump ▸ .expired m oldest t) rfl rfl hnil
  | subscribe i m t hpump => exact .advance i _ _ (hpump ▸ .subscribe m t _) rfl rfl rfl
  | abandon i effect m t hpump => exact .advance i [] _ (hpump ▸ .abandon m t) rfl rfl hnil
  | spawn i m t k hpump => exact .advance i _ _ (hpump ▸ .spawn m t k) rfl rfl rfl
  | undo i m t k hpump => exact .advance i [] _ (hpump ▸ .undo m t k) rfl rfl hnil
  | dropped i outcome m t hpump => exact .advance i _ _ (hpump ▸ .dropped m t) rfl rfl rfl
  | settle i outcome m b hpump => exact .advance i [] _ (hpump ▸ .settle m) rfl rfl hnil
  | arrive => exact .keep _ rfl rfl rfl (by simp [DownlinkEvent.copy])
  | relay => exact .keep _ rfl rfl (List.append_assoc _ _ _) (by simp [DownlinkEvent.copy])
  | discard => exact .keep _ rfl rfl rfl (by simp [DownlinkEvent.copy])
  | _ => exact .keep [] rfl rfl hnil (by simp)

/-! ### What happens once for a command -/

/-- The events of one kind and what the pumps have yet to do of that kind: for each subscription
they are about some of the received commands, each at most once and in their order. -/
structure Tracks (event : DownlinkEvent Bytes → Option (Copy Bytes))
    (todo : DownlinkPhase Bytes → List (Copy Bytes)) (s : Downlink Bytes) : Prop where
  subscription : ∀ i, ∀ c ∈ todo (s.pumps i), c.subscription = i
  sublist : ∀ i, ((s.log.filterMap event).filter (fun c => c.subscription = i) ++
    todo (s.pumps i)).Sublist (s.bus.received.filter fun c => c.subscription = i)

section Tracks

variable {event : DownlinkEvent Bytes → Option (Copy Bytes)}
  {todo : DownlinkPhase Bytes → List (Copy Bytes)}

/-- Tracking goes on where each step of a pump does of its work what it logs. -/
theorem Tracks.move (hevent : ∀ e, e.copy = none → event e = none) (hidle : todo .idle = [])
    (hforwarded : ∀ m, todo (.forwarded m) = [m.copy])
    (hadvance : ∀ phase es phase', PumpStep phase es phase' →
      (es.filterMap event ++ todo phase').Sublist (todo phase))
    (h : s.Tracks event todo) (hmove : PumpMove s s') : s'.Tracks event todo := by
  cases hmove with
  | keep es hpumps hreceived hlog hes =>
    have hnone : es.filterMap event = [] :=
      List.filterMap_eq_nil_iff.mpr fun e he => hevent e (hes e he)
    refine ⟨hpumps ▸ h.subscription, fun i => ?_⟩
    rw [hpumps, hreceived, hlog, List.filterMap_append, hnone, List.append_nil]
    exact h.sublist i
  | refuse c hpumps hreceived hlog =>
    refine ⟨hpumps ▸ h.subscription, fun i => ?_⟩
    rw [hpumps, hreceived, hlog, List.filter_append]
    exact (h.sublist i).trans (List.sublist_append_left _ _)
  | forward i c bytes hpump hsub hpumps hreceived hlog =>
    refine ⟨fun j c' hc' => ?_, fun j => ?_⟩
    · by_cases hji : j = i
      · subst hji
        rw [hpumps, Function.update_self, hforwarded, List.mem_singleton] at hc'
        exact hc' ▸ hsub
      · rw [hpumps, Function.update_of_ne hji] at hc'
        exact h.subscription j c' hc'
    · have hj := h.sublist j
      by_cases hji : j = i
      · subst hji
        rw [hpump, hidle, List.append_nil] at hj
        rw [hpumps, hreceived, hlog, List.filter_append, Function.update_self, hforwarded]
        simpa [hsub] using hj.append (List.Sublist.refl [c])
      · rw [hpumps, hreceived, hlog, List.filter_append, Function.update_of_ne hji]
        exact hj.trans (List.sublist_append_left _ _)
  | advance i es phase hstep hpumps hreceived hlog =>
    have hwork := hadvance _ _ _ hstep
    refine ⟨fun j c hc => ?_, fun j => ?_⟩
    · by_cases hji : j = i
      · subst hji
        rw [hpumps, Function.update_self] at hc
        exact h.subscription j c (hwork.subset (List.mem_append_right _ hc))
      · rw [hpumps, Function.update_of_ne hji] at hc
        exact h.subscription j c hc
    · have hj := h.sublist j
      have hmem : ∀ c ∈ es.filterMap event, c.subscription = i := fun c hc =>
        h.subscription i c (hwork.subset (List.mem_append_left _ hc))
      rw [hpumps, hreceived, hlog, List.filterMap_append, List.filter_append]
      by_cases hji : j = i
      · subst hji
        have hall :
            (es.filterMap event).filter (fun c => c.subscription = j) = es.filterMap event :=
          List.filter_eq_self.mpr fun c hc => by simpa using hmem c hc
        rw [Function.update_self, hall, List.append_assoc]
        exact (hwork.append_left _).trans hj
      · have hnone : (es.filterMap event).filter (fun c => c.subscription = j) = [] :=
          List.filter_eq_nil_iff.mpr fun c hc => by simpa [hmem c hc] using Ne.symm hji
        rw [Function.update_of_ne hji, hnone, List.append_nil]
        exact hj

omit [Inhabited ρ] in
/-- Of the copy of a publish in a subscription there is at most one event of a tracked kind. -/
theorem Tracks.once (h : s.Tracks event todo) (hbus : s.bus.Sound S.siteSubscriptions) (i : ℕ) :
    (((s.log.filterMap event).filter fun c => c.subscription = i).map Copy.publish).Pairwise
      (· < ·) :=
  (hbus.received_ordered i).sublist (((List.sublist_append_left _ _).trans (h.sublist i)).map _)

/-- A tracked event is about a received command. -/
theorem Tracks.received (h : s.Tracks event todo) {c : Copy Bytes}
    (hc : c ∈ s.log.filterMap event) : c ∈ s.bus.received := by
  have hmem := ((List.sublist_append_left _ _).trans (h.sublist c.subscription)).subset
    (List.mem_filter.mpr ⟨hc, by simp⟩)
  exact (List.mem_filter.mp hmem).1

end Tracks

/-- What every state of the downlink tasks keeps. -/
structure Books (S : Setup Bytes ρ) (s : Downlink Bytes) : Prop where
  bus : s.bus.Sound S.siteSubscriptions
  commanded : s.Tracks DownlinkEvent.commandedCopy DownlinkPhase.unpublished
  recorded : s.Tracks DownlinkEvent.recordedCopy DownlinkPhase.unrecorded
  idle : ∀ i, S.siteSubscriptions.length ≤ i → s.pumps i = .idle
  absent : ∀ k, s.nextReplyPump ≤ k → s.replyPumps k = .absent

omit [Inhabited ρ] in
/-- The books are right at the start. -/
theorem books_start (S : Setup Bytes ρ) : (start S).Books S where
  bus := .start _
  commanded :=
    ⟨by simp [start, DownlinkPhase.unpublished], by simp [start, DownlinkPhase.unpublished]⟩
  recorded := ⟨by simp [start, DownlinkPhase.unrecorded], by simp [start, DownlinkPhase.unrecorded]⟩
  idle _ _ := rfl
  absent _ _ := rfl

/-- Every move keeps the site broker's connection sound. -/
theorem Move.sound (hbus : s.bus.Sound S.siteSubscriptions) (h : Move S s a s' bumps) :
    s'.bus.Sound S.siteSubscriptions := by
  cases h with
  | publish topic payload => exact hbus.publish topic payload
  | refuse i c bus reason hpump hrecv => exact hbus.recv hrecv
  | forward i c bus bytes hpump hrecv => exact hbus.recv hrecv
  | _ => exact hbus

omit [Inhabited ρ] in
/-- Only the pumps of subscriptions do something. -/
theorem PumpMove.idle (hidle : ∀ i, S.siteSubscriptions.length ≤ i → s.pumps i = .idle)
    (hbus : s'.bus.Sound S.siteSubscriptions) (h : PumpMove s s') (i : ℕ)
    (hi : S.siteSubscriptions.length ≤ i) : s'.pumps i = .idle := by
  cases h with
  | keep es hpumps => exact hpumps ▸ hidle i hi
  | refuse c hpumps => exact hpumps ▸ hidle i hi
  | forward j c bytes hpump hsub hpumps hreceived =>
    have hmem : c ∈ s'.bus.received := by simp [hreceived]
    obtain ⟨-, -, sub, hget, -⟩ := hbus.faithful _ c (Bus.mem_log_of_received hmem)
    have hlt := (List.getElem?_eq_some_iff.mp hget).1
    rw [hpumps, Function.update_of_ne (by omega)]
    exact hidle i hi
  | advance j es phase hstep hpumps =>
    have hne : i ≠ j := by
      rintro rfl
      rw [hidle i hi] at hstep
      cases hstep
    rw [hpumps, Function.update_of_ne hne]
    exact hidle i hi

/-- Only the reply pumps that have been spawned do something. -/
theorem Move.absent (habsent : ∀ k, s.nextReplyPump ≤ k → s.replyPumps k = .absent)
    (h : Move S s a s' bumps) (k : ℕ) (hk : s'.nextReplyPump ≤ k) : s'.replyPumps k = .absent := by
  have hother : ∀ {j : ℕ} {phase phase' : ReplyPhase Bytes}, s.replyPumps j = phase →
      phase ≠ .absent → s.nextReplyPump ≤ k →
        Function.update s.replyPumps j phase' k = .absent := by
    intro j phase phase' hj hne hk
    have hkj : k ≠ j := by
      rintro rfl
      exact hne (hj ▸ habsent k hk)
    rw [Function.update_of_ne hkj]
    exact habsent k hk
  cases h with
  | spawn i m t sub hpump hlive =>
    have hk' : s.nextReplyPump + 1 ≤ k := hk
    have hne : k ≠ s.nextReplyPump := by omega
    change Function.update s.replyPumps s.nextReplyPump (.waiting t sub) k = .absent
    rw [Function.update_of_ne hne]
    exact habsent k (by omega)
  | arrive j t sub payload inbox hphase => exact hother hphase (by simp) hk
  | close j t sub hphase => exact hother hphase (by simp) hk
  | stray j t payload hphase => exact hother hphase (by simp) hk
  | relay j t payload bytes p before after hphase => exact hother hphase (by simp) hk
  | discard j t payload reason p before after hphase => exact hother hphase (by simp) hk
  | relayed j outcome t b hphase => exact hother hphase (by simp) hk
  | settled j outcome t hphase => exact hother hphase (by simp) hk
  | _ => exact habsent k hk

/-- Every move keeps the books right. -/
theorem Books.move (h : s.Books S) (hmove : Move S s a s' bumps) : s'.Books S where
  bus := hmove.sound h.bus
  commanded := by
    refine h.commanded.move ?_ rfl (fun _ => rfl) ?_ (hmove.pump h.bus)
    · intro e he
      cases e <;> simp_all [DownlinkEvent.copy, DownlinkEvent.commandedCopy]
    · intro phase es phase' hstep
      cases hstep <;> simp [DownlinkEvent.commandedCopy, DownlinkPhase.unpublished]
  recorded := by
    refine h.recorded.move ?_ rfl (fun _ => rfl) ?_ (hmove.pump h.bus)
    · intro e he
      cases e <;> simp_all [DownlinkEvent.copy, DownlinkEvent.recordedCopy, DownlinkEvent.recording]
    · intro phase es phase' hstep
      cases hstep <;>
        simp [DownlinkEvent.recordedCopy, DownlinkEvent.recording, DownlinkPhase.unrecorded]
  idle := (hmove.pump h.bus).idle h.idle (hmove.sound h.bus)
  absent := hmove.absent h.absent

/-- The books are right in every state of every run. -/
theorem books {P : Downlink Bytes → DownlinkAction Bytes → Prop} {s : Downlink Bytes}
    (h : (system S).Reachable P s) : s.Books S :=
  move_invariant (books_start S) (fun _ _ _ _ _ hbooks _ hmove => hbooks.move hmove) h

/-! ### Quiescent states -/

/-- No task is between two of its steps. -/
structure Quiescent (s : Downlink Bytes) : Prop where
  pumps : ∀ i, s.pumps i = .idle
  sweeper : s.sweeper = []
  replyPumps : ∀ k, s.replyPumps k = .absent ∨ (∃ t sub, s.replyPumps k = .waiting t sub) ∨
    s.replyPumps k = .done

/-- Whether all pumps of subscriptions and all spawned reply pumps are between two messages. -/
def isQuiescent (S : Setup Bytes ρ) (s : Downlink Bytes) : Bool :=
  (List.range S.siteSubscriptions.length).all (fun i => match s.pumps i with
    | .idle => true
    | _ => false) &&
  s.sweeper.isEmpty &&
  (List.range s.nextReplyPump).all fun k => match s.replyPumps k with
    | .absent | .waiting _ _ | .done => true
    | _ => false

omit [Inhabited ρ] in
/-- The test finds the quiescent states of a run. -/
theorem Books.quiescent (h : s.Books S) (htest : s.isQuiescent S = true) : s.Quiescent := by
  simp only [isQuiescent, Bool.and_eq_true, List.all_eq_true, List.mem_range,
    List.isEmpty_iff] at htest
  obtain ⟨⟨hpumps, hsweeper⟩, hreply⟩ := htest
  refine ⟨fun i => ?_, hsweeper, fun k => ?_⟩
  · by_cases hi : i < S.siteSubscriptions.length
    · have hphase := hpumps i hi
      split at hphase
      · assumption
      · cases hphase
    · exact h.idle i (Nat.le_of_not_lt hi)
  · by_cases hk : k < s.nextReplyPump
    · have hphase := hreply k hk
      split at hphase
      · exact Or.inl (by assumption)
      · exact Or.inr (Or.inl ⟨_, _, by assumption⟩)
      · exact Or.inr (Or.inr (by assumption))
      · cases hphase
    · exact Or.inl (h.absent k (Nat.le_of_not_lt hk))

/-! ### The entries of the correlation map -/

/-- The commands that have been recorded, with their bridge topics. -/
def recordings (s : Downlink Bytes) : List (Copy Bytes × String) :=
  s.log.filterMap DownlinkEvent.recording

/-- The bridge topics that have been recorded. -/
def recordedTopics (s : Downlink Bytes) : List String := s.recordings.map Prod.snd

/-- What a step of the downlink does to the correlation map. -/
inductive MapMove (S : Setup Bytes ρ) (s : Downlink Bytes) (a : DownlinkAction Bytes)
    (s' : Downlink Bytes) : Prop
  /-- Entries may leave. -/
  | shrink (es : List (DownlinkEvent Bytes))
      (hpending : s'.correlator.pending.Sublist s.correlator.pending) (hlog : s'.log = s.log ++ es)
      (hes : ∀ e ∈ es, e.recording = none)
  /-- An entry is recorded for a command, and others may leave. -/
  | enter (i : ℕ) (mint : String) (now : Instant) (m : Command Bytes) (msg : Message ρ)
      (p : Pending) (kept : List (String × Pending)) (ha : a = .rewriteDownlink i mint now)
      (hpump : s.pumps i = .forwarded m) (hdecode : S.codec.fromSlice m.bytes = some msg)
      (hreply : msg.header.replyTo = some p.siteReplyTo)
      (hkept : kept.Sublist s.correlator.pending)
      (hpending : s'.correlator.pending = kept ++ [(mint, p)])
      (hlog : s'.log = s.log ++ [.recorded m.copy mint])

/-- Every step of the downlink is one of these. -/
theorem Move.map (h : Move S s a s' bumps) : MapMove S s a s' := by
  have hnil : s.log = s.log ++ [] := (List.append_nil _).symm
  have hleave : ∀ {before after : List (String × Pending)} {x : String × Pending},
      s.correlator.pending = before ++ x :: after →
        (before ++ after).Sublist s.correlator.pending := fun hpending => by
    rw [hpending]
    exact (List.sublist_cons_self _ _).append_left _
  cases h with
  | record i mint now m msg site bytes hpump hdecode hreply =>
    exact .enter i mint now m msg _ _ rfl hpump hdecode hreply (.refl _) rfl rfl
  | replace i mint now m msg site bytes oldest p rest hpump hdecode hreply hencode hpending =>
    exact .enter i mint now m msg _ rest rfl hpump hdecode hreply
      (hpending ▸ List.sublist_cons_self _ _) rfl rfl
  | pass => exact .shrink _ (.refl _) rfl (by simp [DownlinkEvent.recording])
  | panic i mint now m pending hpump hoverflow hpending =>
    exact .shrink [] (hpending ▸ s.correlator.evictOldest_sublist) hnil (by simp)
  | subscribe => exact .shrink _ (.refl _) rfl (by simp [DownlinkEvent.recording])
  | abandon => exact .shrink [] List.filter_sublist hnil (by simp)
  | spawn => exact .shrink _ (.refl _) rfl (by simp [DownlinkEvent.recording])
  | dropped => exact .shrink _ (.refl _) rfl (by simp [DownlinkEvent.recording])
  | sweep => exact .shrink [] (List.drop_sublist _ _) hnil (by simp)
  | arrive => exact .shrink _ (.refl _) rfl (by simp [DownlinkEvent.recording])
  | relay k t payload bytes p before after hphase hpending =>
    exact .shrink _ (hleave hpending) (List.append_assoc _ _ _) (by simp [DownlinkEvent.recording])
  | discard k t payload reason p before after hphase hpending =>
    exact .shrink _ (hleave hpending) rfl (by simp [DownlinkEvent.recording])
  | _ => exact .shrink [] (.refl _) hnil (by simp)

/-- The log only grows. -/
theorem Move.subset_log (h : Move S s a s' bumps) : s.log ⊆ s'.log := by
  cases h.map with
  | shrink es hpending hlog hes => exact hlog ▸ List.subset_append_left _ _
  | enter i mint now m msg p kept ha hpump hdecode hreply hkept hpending hlog =>
    exact hlog ▸ List.subset_append_left _ _

/-- Every mint is a topic that was not recorded before. -/
def FreshMints (s : Downlink Bytes) (a : DownlinkAction Bytes) : Prop :=
  ∀ i mint now, a = .rewriteDownlink i mint now → mint ∉ s.recordedTopics

omit [Inhabited ρ] in
/-- The recorded topics only grow. -/
theorem MapMove.subset_recordedTopics (h : MapMove S s a s') :
    s.recordedTopics ⊆ s'.recordedTopics := by
  have hgrow : ∀ es, s'.log = s.log ++ es → s.recordedTopics ⊆ s'.recordedTopics := by
    intro es hlog
    simp [recordedTopics, recordings, hlog]
  cases h with
  | shrink es hpending hlog hes => exact hgrow es hlog
  | enter i mint now m msg p kept ha hpump hdecode hreply hkept hpending hlog => exact hgrow _ hlog

omit [Inhabited ρ] in
/-- A topic without an entry that was recorded gets no entry any more. -/
theorem MapMove.notMem_topics (hfresh : FreshMints s a) (h : MapMove S s a s') {t : String}
    (hrecorded : t ∈ s.recordedTopics) (hgone : t ∉ s.correlator.topics) :
    t ∉ s'.correlator.topics := by
  intro ht
  cases h with
  | shrink es hpending hlog hes => exact hgone ((hpending.map _).subset ht)
  | enter i mint now m msg p kept ha hpump hdecode hreply hkept hpending hlog =>
    have htopics : s'.correlator.topics = kept.map Prod.fst ++ [mint] := by
      simp [ReplyCorrelator.topics, hpending]
    rcases List.mem_append.mp (htopics ▸ ht) with ht | ht
    · exact hgone ((hkept.map _).subset ht)
    · exact hfresh i mint now ha (List.mem_singleton.mp ht ▸ hrecorded)

/-- No topic is recorded twice, and the entries have different topics, which were recorded. -/
structure Keys (s : Downlink Bytes) : Prop where
  nodup_recorded : s.recordedTopics.Nodup
  nodup : s.correlator.topics.Nodup
  recorded : ∀ t ∈ s.correlator.topics, t ∈ s.recordedTopics

omit [Inhabited ρ] in
/-- With fresh mints, every move keeps the keys right. -/
theorem Keys.move (h : s.Keys) (hfresh : FreshMints s a) (hmap : MapMove S s a s') : s'.Keys := by
  cases hmap with
  | shrink es hpending hlog hes =>
    have htopics : s'.correlator.topics.Sublist s.correlator.topics := hpending.map _
    have hrecorded : s'.recordedTopics = s.recordedTopics := by
      simp [recordedTopics, recordings, hlog, List.filterMap_eq_nil_iff.mpr hes]
    refine ⟨hrecorded ▸ h.nodup_recorded, h.nodup.sublist htopics, fun t ht => ?_⟩
    rw [hrecorded]
    exact h.recorded t (htopics.subset ht)
  | enter i mint now m msg p kept ha hpump hdecode hreply hkept hpending hlog =>
    have hmint := hfresh i mint now ha
    have htopics : s'.correlator.topics = kept.map Prod.fst ++ [mint] := by
      simp [ReplyCorrelator.topics, hpending]
    have hrecorded : s'.recordedTopics = s.recordedTopics ++ [mint] := by
      simp [recordedTopics, recordings, hlog, DownlinkEvent.recording]
    have hsub : (kept.map Prod.fst).Sublist s.correlator.topics := hkept.map _
    refine ⟨?_, ?_, fun t ht => ?_⟩
    · rw [hrecorded, ← List.concat_eq_append]
      exact h.nodup_recorded.concat hmint
    · rw [htopics, ← List.concat_eq_append]
      exact (h.nodup.sublist hsub).concat fun hmem => hmint (h.recorded _ (hsub.subset hmem))
    · rw [htopics] at ht
      rw [hrecorded]
      rcases List.mem_append.mp ht with ht | ht
      · exact List.mem_append_left _ (h.recorded t (hsub.subset ht))
      · exact List.mem_append_right _ ht

/-- The keys are right in every state of every run with fresh mints. -/
theorem keys {P : Downlink Bytes → DownlinkAction Bytes → Prop}
    (hP : ∀ s a, P s a → FreshMints s a) (h : (system S).Reachable P s) : s.Keys := by
  refine move_invariant ?_ (fun s a _ _ _ hkeys hPa hmove => hkeys.move (hP s a hPa) hmove.map) h
  refine ⟨List.nodup_nil, List.nodup_nil, fun t ht => ?_⟩
  simp [start, ReplyCorrelator.topics, ReplyCorrelator.new] at ht

omit [Inhabited ρ] in
/-- A command is recorded once. -/
theorem Books.recording_unique (h : s.Books S) {c : Copy Bytes} {t t' : String}
    (ht : (c, t) ∈ s.recordings) (ht' : (c, t') ∈ s.recordings) : t = t' := by
  have hnodup := (h.recorded.once h.bus c.subscription).imp (S := (· ≠ ·)) (fun hlt => hlt.ne)
  have hcopies : s.log.filterMap DownlinkEvent.recordedCopy = s.recordings.map Prod.fst := by
    rw [recordings, List.map_filterMap]
    rfl
  rw [hcopies, List.filter_map, List.map_map] at hnodup
  have hmem : ∀ {t}, (c, t) ∈ s.recordings →
      (c, t) ∈ s.recordings.filter ((fun c' => c'.subscription = c.subscription) ∘ Prod.fst) :=
    fun ht => List.mem_filter.mpr ⟨ht, by simp⟩
  exact congrArg Prod.snd (List.inj_on_of_nodup_map hnodup (hmem ht) (hmem ht') rfl)

/-- A recorded event is a recording. -/
theorem mem_recordings {c : Copy Bytes} {t : String} :
    (c, t) ∈ s.recordings ↔ .recorded c t ∈ s.log := by
  unfold recordings
  rw [List.mem_filterMap]
  constructor
  · rintro ⟨e, he, hrec⟩
    cases e <;> simp_all [DownlinkEvent.recording]
  · exact fun h => ⟨_, h, rfl⟩

/-- A topic is recorded for one command. -/
theorem Keys.copy_unique (hkeys : s.Keys) {c c' : Copy Bytes} {t : String}
    (h : .recorded c t ∈ s.log) (h' : .recorded c' t ∈ s.log) : c = c' :=
  congrArg Prod.fst (List.inj_on_of_nodup_map hkeys.nodup_recorded (mem_recordings.mpr h)
    (mem_recordings.mpr h') rfl)

end Downlink

end UnsBridge
