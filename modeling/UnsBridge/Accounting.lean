import UnsBridge.Io.RelayIo

/-!
# Every message is accounted for

The uplink pumps, the downlink pumps and the reply pumps receive messages, and some twenty exits of
the tasks bump a counter for what became of one.  A received message that no counter has settled yet
is in flight: with its pump, in the replay buffer or with the watcher.  Every step of a task settles
exactly the messages that it takes out of flight (`Flow.balance_of_move`,
`Downlink.balance_of_move`). The entries of the correlation map are counted in the same way
(`Downlink.entries_of_move`).

Where no task is between two of its steps, nothing but the replay buffer is in flight, and the
counters add up.
-/

namespace UnsBridge

open Transition

variable {Bytes ρ : Type} [Inhabited ρ]

/-- The number of unsettled messages that a downlink pump holds.  A pump that has panicked never
settles its message. -/
def DownlinkPhase.load : DownlinkPhase Bytes → ℕ
  | .idle => 0
  | .forwarded _ | .expiring _ _ _ | .subscribing _ _ | .checking _ _ _ | .dropping _ _
  | .publishing _ | .dead => 1

/-- The number of unsettled messages that a reply pump holds. -/
def ReplyPhase.load : ReplyPhase Bytes → ℕ
  | .received _ _ | .publishing _ => 1
  | .absent | .waiting _ _ | .settling _ | .done => 0

/-- The topic of a reply that was resolved through the map, if the event is that. -/
def DownlinkEvent.takenTopic : DownlinkEvent Bytes → Option String
  | .taken t => some t
  | _ => none

/-- The topic of a message that a reply pump received, if the event is that. -/
def DownlinkEvent.arrivedTopic : DownlinkEvent Bytes → Option String
  | .arrived t _ => some t
  | _ => none

namespace Downlink

/-- The messages that the reply pumps have received, by their topics. -/
def arrivals (s : Downlink Bytes) : List String := s.log.filterMap DownlinkEvent.arrivedTopic

/-- The replies that were resolved through the map, by their topics. -/
def takes (s : Downlink Bytes) : List String := s.log.filterMap DownlinkEvent.takenTopic

/-- The number of messages between their reception and their settlement. -/
def inFlight (S : Setup Bytes ρ) (s : Downlink Bytes) : ℕ :=
  ∑ i ∈ Finset.range S.siteSubscriptions.length, (s.pumps i).load +
    ∑ k ∈ Finset.range s.nextReplyPump, (s.replyPumps k).load

/-- The number of entries that are in the correlation map, or that left it and are not counted yet:
the count of an expiry is made when the unsubscribe of its topic starts. -/
def outstanding (s : Downlink Bytes) : ℕ := s.correlator.pending.length + s.sweeper.tail.length

/-- The deadline of a command does not overflow. -/
def NoOverflow (s : Downlink Bytes) (a : DownlinkAction Bytes) : Prop :=
  ∀ i mint now, a = .rewriteDownlink i mint now →
    (Instant.checkedAdd now s.correlator.ttl).isSome = true

variable {S : Setup Bytes ρ} {s s' : Downlink Bytes} {a : DownlinkAction Bytes} {bumps : List Bump}

/-- What a step does to the messages in flight, with the number of messages that it settles. -/
inductive Turn (s s' : Downlink Bytes) (settled : ℕ) : Prop
  /-- No task goes on with a message. -/
  | keep (hpumps : s'.pumps = s.pumps) (hreplyPumps : s'.replyPumps = s.replyPumps)
      (hnext : s'.nextReplyPump = s.nextReplyPump) (harrivals : s'.arrivals = s.arrivals)
      (hcount : s'.bus.received.length = s.bus.received.length + settled)
  /-- A downlink pump goes on. -/
  | pump (i : ℕ) (phase : DownlinkPhase Bytes) (hpumps : s'.pumps = Function.update s.pumps i phase)
      (hreplyPumps : s'.replyPumps = s.replyPumps) (hnext : s'.nextReplyPump = s.nextReplyPump)
      (harrivals : s'.arrivals = s.arrivals)
      (hcount : s'.bus.received.length + (s.pumps i).load =
        s.bus.received.length + settled + phase.load)
  /-- A downlink pump goes on and spawns a reply pump. -/
  | spawn (i : ℕ) (phase : DownlinkPhase Bytes) (t : String) (subscription : ℕ)
      (hpumps : s'.pumps = Function.update s.pumps i phase)
      (hreplyPumps : s'.replyPumps =
        Function.update s.replyPumps s.nextReplyPump (.waiting t subscription))
      (hnext : s'.nextReplyPump = s.nextReplyPump + 1) (harrivals : s'.arrivals = s.arrivals)
      (hcount : s'.bus.received.length + (s.pumps i).load =
        s.bus.received.length + settled + phase.load)
  /-- A reply pump goes on. -/
  | replyPump (k : ℕ) (phase : ReplyPhase Bytes) (hpumps : s'.pumps = s.pumps)
      (hreplyPumps : s'.replyPumps = Function.update s.replyPumps k phase)
      (hnext : s'.nextReplyPump = s.nextReplyPump) (hreceived : s'.bus.received = s.bus.received)
      (hcount : s'.arrivals.length + (s.replyPumps k).load =
        s.arrivals.length + settled + phase.load)

/-- Every step of the downlink is one of these, and its counters settle the messages it says. -/
theorem Move.turn (h : Move S s a s' bumps) : Turn s s' (bumps.map Bump.settles).sum := by
  -- a pump that goes on receives nothing
  have hgo : ∀ {i : ℕ} {load settled load' : ℕ}, (s.pumps i).load = load → load = settled + load' →
      s.bus.received.length + (s.pumps i).load = s.bus.received.length + settled + load' := by
    intro i load settled load' hload heq
    omega
  have hlog : ∀ e : DownlinkEvent Bytes, e.arrivedTopic = none →
      (s.log ++ [e]).filterMap DownlinkEvent.arrivedTopic = s.arrivals := fun e he => by
    simp [arrivals, he]
  cases h with
  | publish => exact .keep rfl rfl rfl rfl rfl
  | refuse i c bus reason hpump hrecv =>
    refine .keep rfl rfl rfl rfl ?_
    simp [(Bus.recv_eq_some hrecv).2.1, Bump.settles]
  | forward i c bus bytes hpump hrecv =>
    refine .pump i _ rfl rfl rfl rfl ?_
    simp [setPump, (Bus.recv_eq_some hrecv).2.1, hpump, DownlinkPhase.load]
  | pass i mint now m msg hpump =>
    have hload := congrArg DownlinkPhase.load hpump
    exact .pump i _ rfl rfl rfl (hlog _ rfl) (hgo hload rfl)
  | malformed i mint now m hpump =>
    have hload := congrArg DownlinkPhase.load hpump
    exact .pump i _ rfl rfl rfl rfl (hgo hload rfl)
  | record i mint now m msg site bytes hpump =>
    have hload := congrArg DownlinkPhase.load hpump
    exact .pump i _ rfl rfl rfl (hlog _ rfl) (hgo hload rfl)
  | replace i mint now m msg site bytes oldest p rest hpump =>
    have hload := congrArg DownlinkPhase.load hpump
    exact .pump i _ rfl rfl rfl (hlog _ rfl) (hgo hload rfl)
  | panic i mint now m pending hpump =>
    have hload := congrArg DownlinkPhase.load hpump
    exact .pump i _ rfl rfl rfl rfl (hgo hload rfl)
  | expired i outcome oldest m t hpump =>
    have hload := congrArg DownlinkPhase.load hpump
    exact .pump i _ rfl rfl rfl rfl (hgo hload rfl)
  | subscribe i m t hpump =>
    have hload := congrArg DownlinkPhase.load hpump
    exact .pump i _ rfl rfl rfl (hlog _ rfl) (hgo hload rfl)
  | abandon i effect m t hpump =>
    have hload := congrArg DownlinkPhase.load hpump
    exact .pump i _ rfl rfl rfl rfl (hgo hload rfl)
  | spawn i m t k hpump =>
    have hload := congrArg DownlinkPhase.load hpump
    exact .spawn i _ t k rfl rfl rfl (hlog _ rfl) (hgo hload rfl)
  | undo i m t k hpump =>
    have hload := congrArg DownlinkPhase.load hpump
    exact .pump i _ rfl rfl rfl rfl (hgo hload rfl)
  | dropped i outcome m t hpump =>
    have hload := congrArg DownlinkPhase.load hpump
    exact .pump i _ rfl rfl rfl (hlog _ rfl) (hgo hload rfl)
  | settle i outcome m b hpump hb =>
    have hload := congrArg DownlinkPhase.load hpump
    refine .pump i _ rfl rfl rfl rfl (hgo hload ?_)
    rcases hb with rfl | rfl <;> rfl
  | sweep now hidle =>
    refine .keep rfl rfl rfl rfl ?_
    cases (s.correlator.sweep now).1 <;> rfl
  | swept outcome t rest hsweeper =>
    refine .keep rfl rfl rfl rfl ?_
    cases rest <;> rfl
  | reply => exact .keep rfl rfl rfl rfl rfl
  | arrive k t subscription payload inbox hphase =>
    refine .replyPump k _ rfl rfl rfl rfl ?_
    simp [arrivals, Downlink.record, setReplyPump, DownlinkEvent.arrivedTopic, hphase,
      ReplyPhase.load]
  | close k t subscription hphase =>
    refine .replyPump k _ rfl rfl rfl rfl ?_
    simp [arrivals, setReplyPump, hphase, ReplyPhase.load]
  | stray k t payload hphase =>
    refine .replyPump k _ rfl rfl rfl rfl ?_
    simp [arrivals, setReplyPump, hphase, ReplyPhase.load, Bump.settles]
  | relay k t payload bytes p before after hphase =>
    refine .replyPump k _ rfl rfl rfl rfl ?_
    simp [arrivals, Downlink.record, setReplyPump, setPending, DownlinkEvent.arrivedTopic, hphase,
      ReplyPhase.load]
  | discard k t payload reason p before after hphase =>
    refine .replyPump k _ rfl rfl rfl rfl ?_
    simp [arrivals, Downlink.record, setReplyPump, setPending, DownlinkEvent.arrivedTopic, hphase,
      ReplyPhase.load, Bump.settles]
  | relayed k outcome t b hphase hb =>
    refine .replyPump k _ rfl rfl rfl rfl ?_
    rcases hb with rfl | rfl <;>
      simp [arrivals, setReplyPump, hphase, ReplyPhase.load, Bump.settles]
  | settled k outcome t hphase =>
    refine .replyPump k _ rfl rfl rfl rfl ?_
    simp [arrivals, setReplyPump, unsubscribe, hphase, ReplyPhase.load]

/-- A move settles what it takes out of flight, by the counters it bumps. -/
theorem balance_of_move (hbooks : s.Books S) (hmove : Move S s a s' bumps) :
    s'.bus.received.length + s'.arrivals.length + s.inFlight S =
      s.bus.received.length + s.arrivals.length + (bumps.map Bump.settles).sum + s'.inFlight S := by
  have hbooks' := hbooks.move hmove
  have hpump : ∀ {i : ℕ} {phase : DownlinkPhase Bytes}, s'.pumps = Function.update s.pumps i phase →
      ∑ j ∈ Finset.range S.siteSubscriptions.length, (s'.pumps j).load + (s.pumps i).load =
        ∑ j ∈ Finset.range S.siteSubscriptions.length, (s.pumps j).load + phase.load := by
    intro i phase hpumps
    have hphase : s'.pumps i = phase := by simp [hpumps]
    rw [hpumps]
    refine Collections.sum_range_update (fun hi => ?_) fun hi => ?_
    · rw [hbooks.idle i hi]
      rfl
    · rw [← hphase, hbooks'.idle i hi]
      rfl
  unfold inFlight
  cases hmove.turn with
  | keep hpumps hreplyPumps hnext harrivals hcount =>
    rw [hpumps, hreplyPumps, hnext, harrivals, hcount]
    omega
  | pump i phase hpumps hreplyPumps hnext harrivals hcount =>
    have hsum := hpump hpumps
    rw [hreplyPumps, hnext, harrivals]
    omega
  | spawn i phase t subscription hpumps hreplyPumps hnext harrivals hcount =>
    have hsum := hpump hpumps
    have hspawn := Collections.sum_range_spawn (w := ReplyPhase.load) (f := s.replyPumps)
      (n := s.nextReplyPump) (.waiting t subscription)
    have hwaiting : (ReplyPhase.waiting t subscription : ReplyPhase Bytes).load = 0 := rfl
    rw [hreplyPumps, hnext, harrivals, hspawn, hwaiting]
    omega
  | replyPump k phase hpumps hreplyPumps hnext hreceived hcount =>
    have hphase : s'.replyPumps k = phase := by simp [hreplyPumps]
    have hsum : ∑ j ∈ Finset.range s.nextReplyPump, (s'.replyPumps j).load +
        (s.replyPumps k).load =
          ∑ j ∈ Finset.range s.nextReplyPump, (s.replyPumps j).load + phase.load := by
      rw [hreplyPumps]
      refine Collections.sum_range_update (fun hk => ?_) fun hk => ?_
      · rw [hbooks.absent k hk]
        rfl
      · rw [← hphase, hbooks'.absent k (hnext ▸ hk)]
        rfl
    rw [hpumps, hnext, hreceived]
    omega

/-! ### The entries of the correlation map -/

/-- A step that does not overflow a deadline moves the entries by the counts it makes: a recorded
entry joins, and an entry leaves by a take, by an abandon or by a counted expiry. -/
theorem entries_of_move (hP : NoOverflow s a) (hmove : Move S s a s' bumps) :
    s'.recordings.length + s.takes.length + s.abandoned + s.outstanding =
      s.recordings.length + s'.takes.length + s'.abandoned + s'.outstanding +
        bumps.count .replyExpired := by
  unfold recordings takes outstanding
  cases hmove with
  | panic i mint now m pending hpump hoverflow =>
    have hsome := hP i mint now rfl
    rw [hoverflow] at hsome
    cases hsome
  | record i mint now m msg site bytes hpump =>
    simp [Downlink.record, setPump, setPending, DownlinkEvent.recording, DownlinkEvent.takenTopic,
      List.filterMap_cons]
    omega
  | replace i mint now m msg site bytes oldest p rest hpump hdecode hreply hencode hpending =>
    simp [Downlink.record, setPump, setPending, DownlinkEvent.recording, DownlinkEvent.takenTopic,
      List.filterMap_cons, hpending]
    omega
  | abandon i effect m t hpump =>
    have hle : (s.correlator.abandon t).pending.length ≤ s.correlator.pending.length :=
      List.length_filter_le _ _
    simp [setPump]
    omega
  | settle i outcome m b hpump hb => rcases hb with rfl | rfl <;> rfl
  | sweep now hidle =>
    have hsplit := congrArg List.length (s.correlator.sweep_append now)
    simp only [ReplyCorrelator.topics, List.length_append, List.length_map] at hsplit
    cases htopics : (s.correlator.sweep now).1 with
    | nil =>
      rw [htopics, List.length_nil] at hsplit
      simp [hidle, countExpiry]
      omega
    | cons t rest =>
      rw [htopics, List.length_cons] at hsplit
      simp [hidle, countExpiry]
      omega
  | swept outcome t rest hsweeper =>
    cases rest with
    | nil => simp [hsweeper, unsubscribe, countExpiry]
    | cons t' rest =>
      simp [hsweeper, unsubscribe, countExpiry]
      omega
  | relay k t payload bytes p before after hphase hpending =>
    simp [Downlink.record, setReplyPump, setPending, DownlinkEvent.recording,
      DownlinkEvent.takenTopic, List.filterMap_cons, hpending]
    omega
  | discard k t payload reason p before after hphase hpending =>
    simp [Downlink.record, setReplyPump, setPending, DownlinkEvent.recording,
      DownlinkEvent.takenTopic, List.filterMap_cons, hpending]
    omega
  | relayed k outcome t b hphase hb => rcases hb with rfl | rfl <;> rfl
  | _ =>
    simp [Downlink.record, setPump, setReplyPump, publishCommand, unsubscribe, reply,
      DownlinkEvent.recording, DownlinkEvent.takenTopic, List.filterMap_cons]

/-- The downlink bumps no counter of the replay buffer. -/
theorem Move.evtFlow (h : Move S s a s' bumps) :
    (bumps.map fun b => b.evtFlow.1).sum = 0 ∧ (bumps.map fun b => b.evtFlow.2).sum = 0 := by
  have hexpiry : ∀ topics, ((countExpiry topics).map fun b => b.evtFlow.1).sum = 0 ∧
      ((countExpiry topics).map fun b => b.evtFlow.2).sum = 0 := fun topics => by
    cases topics <;> exact ⟨rfl, rfl⟩
  cases h with
  | settle i outcome m b hpump hb => rcases hb with rfl | rfl <;> exact ⟨rfl, rfl⟩
  | sweep => exact hexpiry _
  | swept outcome t rest hsweeper => exact hexpiry rest
  | relayed k outcome t b hphase hb => rcases hb with rfl | rfl <;> exact ⟨rfl, rfl⟩
  | _ => exact ⟨rfl, rfl⟩

omit [Inhabited ρ] in
/-- Nothing but waiting reply pumps is left in a quiescent state. -/
theorem Quiescent.inFlight (h : s.Quiescent) : s.inFlight S = 0 := by
  have hpumps : ∀ i, (s.pumps i).load = 0 := fun i => by
    rw [h.pumps i]
    rfl
  have hreply : ∀ k, (s.replyPumps k).load = 0 := fun k => by
    rcases h.replyPumps k with hphase | ⟨t, sub, hphase⟩ | hphase <;> rw [hphase] <;> rfl
  simp [Downlink.inFlight, hpumps, hreply]

end Downlink

/-! ### The books of the relay -/

/-- The uplink bumps no expiry. -/
theorem Flow.Move.count_replyExpired {S : Setup Bytes ρ} {f f' : Flow Bytes}
    {a : UplinkAction Bytes} {bumps : List Bump} (h : Flow.Move S f a f' bumps) :
    bumps.count .replyExpired = 0 := by
  cases h with
  | lose _ i m b hload hbump => rcases hbump with rfl | rfl | rfl <;> simp
  | _ => simp

namespace RelayIo

/-- Each received message is settled or in flight. -/
def Settled (S : Setup Bytes ρ) (s : RelayIo Bytes) : Prop :=
  s.up.bus.received.length + s.down.bus.received.length + s.down.arrivals.length =
    s.counters.settled + s.up.flow.inFlight S.deviceSubscriptions.length + s.down.inFlight S

/-- What the counters say in every state: each received message is settled or in flight, each
buffered event is settled, in the buffer or with the watcher, and each recorded entry was taken,
expired or abandoned or is outstanding. -/
structure Balanced (S : Setup Bytes ρ) (s : RelayIo Bytes) : Prop where
  messages : s.Settled S
  events : s.counters.evtBuffered = s.counters.evtReplayed + s.counters.evtBufferDropped +
    s.up.policy.evtBuffer.length + s.up.watcher.held.toList.length
  entries : s.down.recordings.length = s.down.takes.length + s.counters.replyExpired +
    s.down.abandoned + s.down.outstanding

variable {S : Setup Bytes ρ} {s s' : RelayIo Bytes}

/-- A step of the uplink tasks loses no message. -/
theorem Settled.up (h : s.Settled S) (hbooks : s.up.Books S) {a : UplinkAction Bytes}
    (hstep : s.step S (.up a) = some s') : s'.Settled S := by
  obtain ⟨bumps, hs, hdown, hcounters⟩ := step_up hstep
  have hmessages := Flow.balance_of_move hbooks.placed (hbooks.step hs).2
  have hsettled := s.counters.settled_bumpAll bumps
  unfold Settled at h ⊢
  simp only [Uplink.flow] at hmessages h
  rw [hdown, hcounters, hsettled]
  simp only [Uplink.flow]
  omega

/-- A step of the downlink tasks loses no message. -/
theorem Settled.down (h : s.Settled S) (hbooks : s.down.Books S) {a : DownlinkAction Bytes}
    (hstep : s.step S (.down a) = some s') : s'.Settled S := by
  obtain ⟨bumps, hs, hup, hcounters⟩ := step_down hstep
  have hmessages := Downlink.balance_of_move hbooks (Downlink.step_move hs)
  have hsettled := s.counters.settled_bumpAll bumps
  unfold Settled at h ⊢
  rw [hup, hcounters, hsettled]
  omega

omit [Inhabited ρ] in
/-- At the start there is no message. -/
theorem settled_start (S : Setup Bytes ρ) (siteUp : Bool) : (start S siteUp).Settled S := by
  have hup : (Uplink.start S siteUp).flow.inFlight S.deviceSubscriptions.length = 0 := by
    simp [Uplink.flow, Uplink.start, Flow.inFlight, Flow.loads, UplinkPolicy.fromConfig,
      Watcher.held]
  have hdown : (Downlink.start S).inFlight S = 0 := by
    simp [Downlink.start, Downlink.inFlight, DownlinkPhase.load]
  change 0 = 0 + (Uplink.start S siteUp).flow.inFlight _ + (Downlink.start S).inFlight S
  rw [hup, hdown]

/-- Each received message is settled or in flight, in every state of every run. -/
theorem settled {P : RelayIo Bytes → RelayIoAction Bytes → Prop}
    (h : (system S).Reachable P s) : s.Settled S := by
  apply h.invariant
  · rintro s ⟨siteUp, rfl⟩
    exact settled_start S siteUp
  · intro s a s' hreach hI _ hstep
    cases a with
    | up b =>
      have hup := reachable_up (R := System.anyStep) (hreach.mono fun _ _ _ _ _ => trivial)
      exact hI.up (Uplink.books hup) hstep
    | down b =>
      have hdown := reachable_down (R := System.anyStep) (hreach.mono fun _ _ _ _ _ => trivial)
      exact hI.down (Downlink.books hdown) hstep

/-- A step of the uplink tasks keeps the books balanced. -/
theorem Balanced.up (h : s.Balanced S) (hbooks : s.up.Books S) {a : UplinkAction Bytes}
    (hstep : s.step S (.up a) = some s') : s'.Balanced S := by
  obtain ⟨bumps, hs, hdown, hcounters⟩ := step_up hstep
  have hmove := (hbooks.step hs).2
  have hevents := Flow.evt_balance_of_move hmove
  obtain ⟨hin, hout⟩ := s.counters.evt_bumpAll bumps
  have hexpired := s.counters.replyExpired_bumpAll bumps
  rw [hmove.count_replyExpired] at hexpired
  obtain ⟨hmsg, hevt, hentries⟩ := h
  simp only [Uplink.flow] at hevents
  refine ⟨hmsg.up hbooks hstep, ?_, ?_⟩
  · rw [hcounters, hin]
    omega
  · rw [hdown, hcounters, hexpired]
    exact hentries

/-- A step of the downlink tasks keeps the books balanced, where no deadline overflows. -/
theorem Balanced.down (h : s.Balanced S) (hbooks : s.down.Books S) {a : DownlinkAction Bytes}
    (hP : s.down.NoOverflow a) (hstep : s.step S (.down a) = some s') : s'.Balanced S := by
  obtain ⟨bumps, hs, hup, hcounters⟩ := step_down hstep
  have hmove := Downlink.step_move hs
  have hentries := Downlink.entries_of_move hP hmove
  obtain ⟨hin, hout⟩ := s.counters.evt_bumpAll bumps
  have hexpired := s.counters.replyExpired_bumpAll bumps
  rw [hmove.evtFlow.1] at hin
  rw [hmove.evtFlow.2] at hout
  obtain ⟨hmsg, hevt, hent⟩ := h
  refine ⟨hmsg.down hbooks hstep, ?_, ?_⟩
  · rw [hup, hcounters, hin]
    omega
  · rw [hcounters, hexpired]
    omega

/-- The books are balanced in every state of every run in which no deadline overflows. -/
theorem balanced (h : (system S).Reachable (onDown Downlink.NoOverflow) s) : s.Balanced S := by
  apply h.invariant
  · rintro s ⟨siteUp, rfl⟩
    exact ⟨settled_start S siteUp, rfl, rfl⟩
  · intro s a s' hreach hI hP hstep
    cases a with
    | up b =>
      have hup := reachable_up (R := System.anyStep) (hreach.mono fun _ _ _ _ _ => trivial)
      exact hI.up (Uplink.books hup) hstep
    | down b => exact hI.down (Downlink.books (reachable_down hreach)) (hP b rfl) hstep

/-- No task is between two of its steps. -/
structure Quiescent (s : RelayIo Bytes) : Prop where
  up : s.up.Quiescent
  down : s.down.Quiescent

end RelayIo

/-- Every message is accounted for exactly once.  In every run in which no deadline overflows, in
every state in which no task is between two of its steps: the messages that the pumps have received
are the ones the counters settle and the ones in the replay buffer; the events counted as buffered
are those counted as replayed or dropped and those in the buffer; and the entries recorded in the
correlation map are those that were taken, counted as expired or abandoned and those that are
pending. -/
theorem every_message_accounted (S : Setup Bytes ρ) {s : RelayIo Bytes}
    (h : (RelayIo.system S).Reachable (RelayIo.onDown Downlink.NoOverflow) s)
    (hquiescent : s.Quiescent) :
    s.up.bus.received.length + s.down.bus.received.length + s.down.arrivals.length =
        s.counters.uplinked.total + s.counters.droppedDisabled.total +
          s.counters.droppedRate.total + s.counters.droppedDisconnected.total +
          s.counters.downlinked + s.counters.loopDropped + s.counters.routedDropped +
          s.counters.malformedDropped + s.counters.publishFailed + s.counters.replyRelayed +
          s.counters.replyStray + s.counters.evtReplayed + s.counters.evtBufferDropped +
          s.up.policy.evtBuffer.length ∧
      s.counters.evtBuffered =
        s.counters.evtReplayed + s.counters.evtBufferDropped + s.up.policy.evtBuffer.length ∧
      s.down.recordings.length = s.down.takes.length + s.counters.replyExpired +
        s.down.abandoned + s.down.correlator.pending.length := by
  obtain ⟨hmessages, hevents, hentries⟩ := RelayIo.balanced h
  have hheld : s.up.watcher.held = none := hquiescent.up.held
  have hup : s.up.flow.inFlight S.deviceSubscriptions.length = s.up.policy.evtBuffer.length :=
    hquiescent.up.inFlight _
  have hdown : s.down.inFlight S = 0 := hquiescent.down.inFlight
  have hout : s.down.outstanding = s.down.correlator.pending.length := by
    simp [Downlink.outstanding, hquiescent.down.sweeper]
  rw [RelayIo.Settled, hup, hdown, RelayCounters.settled] at hmessages
  rw [hheld] at hevents
  rw [hout] at hentries
  exact ⟨hmessages, hevents, hentries⟩

/-- A test for steps that do not overflow a deadline. -/
def fitsDeadline (s : RelayIo Bytes) : RelayIoAction Bytes → Bool
  | .down (.rewriteDownlink _ _ now) => (Instant.checkedAdd now s.down.correlator.ttl).isSome
  | _ => true

omit [Inhabited ρ] in
/-- A step that passes the test does not overflow a deadline. -/
theorem noOverflow_of_fitsDeadline (s : RelayIo Bytes) (a : RelayIoAction Bytes)
    (h : fitsDeadline s a = true) : RelayIo.onDown Downlink.NoOverflow s a := by
  rintro b rfl i mint now rfl
  exact h

/-- Two events and a state arrive around an outage: the state is dropped, one event is replayed and
one goes back to the buffer.  Of three commands with a reply path one is answered, one is abandoned
and one expires. -/
def accountingRun : List (RelayIoAction (Message Unit)) :=
  [.up .watch, .up (.publish "ecv1/gw-01/adapter/main/evt/alarm" (.sample none)),
    .up (.publish "ecv1/gw-01/adapter/main/evt/alarm" (.sample none)),
    .up (.publish "ecv1/gw-01/adapter/main/state" (.sample none)),
    .up (.link false), .up (.recv 4), .up (.relayUp 4 0), .up (.recv 0), .up (.relayUp 0 0),
    .up (.link true), .up (.recv 4), .up (.relayUp 4 0),
    .up .watch, .up .watch, .up .watch, .up .watch, .up (.watchPublished .ok), .up .watch,
    .up .watch, .up (.watchPublished .failed),
    .down (.publish "ecv1/gw-01/adapter/main/cmd/write" (.sample (some "site/replies/7"))),
    .down (.publish "ecv1/gw-01/adapter/main/cmd/write" (.sample (some "site/replies/8"))),
    .down (.publish "ecv1/gw-01/adapter/main/cmd/write" (.sample (some "site/replies/9"))),
    .down (.recv 0), .down (.rewriteDownlink 0 "r-1" 0), .down (.subscribed 0 .ok),
    .down (.check 0), .down (.published 0 .ok), .down (.reply "r-1" (.sample none)),
    .down (.replyRecv 0), .down (.handleReply 0), .down (.replyPublished 0 .ok),
    .down (.replySettled 0 .ok), .down (.recv 0), .down (.rewriteDownlink 0 "r-2" 0),
    .down (.subscribed 0 (.failed false)), .down (.recv 0), .down (.rewriteDownlink 0 "r-3" 0),
    .down (.subscribed 0 .ok), .down (.check 0), .down (.published 0 .failed),
    .down (.sweep 60000000000), .down (.swept .ok), .down (.replyClosed 1)]

/-- After the sample run seven messages are accounted for: six by the counters, one in the buffer.
-/
theorem every_message_accounted_gw01 : ∃ s : RelayIo (Message Unit),
    s.up.bus.received.length + s.down.bus.received.length + s.down.arrivals.length = 7 ∧
      s.up.policy.evtBuffer.length = 1 ∧ s.down.recordings.length = 3 ∧
      7 = s.counters.uplinked.total + s.counters.droppedDisabled.total +
          s.counters.droppedRate.total + s.counters.droppedDisconnected.total +
          s.counters.downlinked + s.counters.loopDropped + s.counters.routedDropped +
          s.counters.malformedDropped + s.counters.publishFailed + s.counters.replyRelayed +
          s.counters.replyStray + s.counters.evtReplayed + s.counters.evtBufferDropped + 1 := by
  obtain ⟨s, hs, hobs⟩ := System.exists_reachable_of_exec (M := RelayIo.system Setup.gw01)
    fitsDeadline noOverflow_of_fitsDeadline (.init ⟨true, rfl⟩) accountingRun
    (fun s => ((s.up.isQuiescent Setup.gw01, s.down.isQuiescent Setup.gw01),
      s.up.bus.received.length + s.down.bus.received.length + s.down.arrivals.length,
      s.up.policy.evtBuffer.length, s.down.recordings.length))
    (x := ((true, true), 7, 1, 3)) (by decide +kernel)
  obtain ⟨htests, hrest⟩ := Prod.mk.inj hobs
  obtain ⟨hreceived, hrest⟩ := Prod.mk.inj hrest
  obtain ⟨hbuffer, hrecorded⟩ := Prod.mk.inj hrest
  obtain ⟨hup, hdown⟩ := Prod.mk.inj htests
  have hbooks := Uplink.books (RelayIo.reachable_up (R := System.anyStep)
    (hs.mono fun _ _ _ _ _ => trivial))
  have hquiescent : s.Quiescent :=
    ⟨hbooks.quiescent hup, (Downlink.books (RelayIo.reachable_down hs)).quiescent hdown⟩
  obtain ⟨hmessages, -, -⟩ := every_message_accounted Setup.gw01 hs hquiescent
  rw [hreceived, hbuffer] at hmessages
  exact ⟨s, hreceived, hbuffer, hrecorded, hmessages⟩

end UnsBridge
