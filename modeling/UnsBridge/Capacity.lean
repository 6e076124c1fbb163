import UnsBridge.Process
import UnsBridge.Work

/-!
# What waits in the relay

Messages wait in the queues of the subscriptions, in the pumps and in the replay buffer, commands
wait for their replies as entries of the correlation map, and expired topics wait for the sweep to
unsubscribe them.  Each of these places is bounded by the configuration, so that `holdings_bounded`
bounds what waits there over the whole life of the process, whatever is published on the two brokers
and however slow or dead they are.

The reply pumps and their subscriptions are not among them.  `handle_reply` takes the entry before
it publishes the reply, so that the map does not bound the number of those whose publish does not
return; and a pump goes on to wait where the unsubscribe of its expired topic fails.
-/

namespace UnsBridge

open Transition

variable {Bytes ρ : Type}

/-- The copies that the queue of a subscription may hold. -/
def Subscription.room (s : Subscription) : ℕ := max s.depth 1

/-- No queue holds more copies than it may. -/
def Bus.Bounded (subs : List Subscription) (b : Bus Bytes) : Prop :=
  ∀ i, (b.queues i).length ≤ (subs[i]?.map Subscription.room).getD 0

/-- The number of commands that a downlink pump holds. -/
def DownlinkPhase.commands : DownlinkPhase Bytes → ℕ
  | .idle | .dead => 0
  | _ => 1

/-- The messages that the uplink holds: in its queues, its pumps, the replay buffer and the
watcher. -/
def Uplink.holdings (S : Setup Bytes ρ) (s : Uplink Bytes) : ℕ :=
  s.bus.queued S.deviceSubscriptions.length +
    ∑ i ∈ Finset.range S.deviceSubscriptions.length, (s.pumps i).load.length +
    s.policy.evtBuffer.length + s.watcher.held.toList.length

/-- The commands that the downlink holds, in its queues and its pumps, the entries of its
correlation map, and the topics that the sweep has to unsubscribe. -/
def Downlink.holdings (S : Setup Bytes ρ) (s : Downlink Bytes) : ℕ :=
  s.bus.queued S.siteSubscriptions.length +
    ∑ i ∈ Finset.range S.siteSubscriptions.length, (s.pumps i).commands +
    s.correlator.pending.length + s.sweeper.length

/-- What the relay may hold: the rooms of its queues, one message for each pump, the replay buffer
and one event that is being replayed, and the correlation map, once for its entries and once for
those that the sweep has taken. -/
def Setup.capacity (S : Setup Bytes ρ) : ℕ :=
  (S.deviceSubscriptions.map Subscription.room).sum + S.deviceSubscriptions.length +
    S.policy.evtBufferMax + 1 +
    ((S.siteSubscriptions.map Subscription.room).sum + S.siteSubscriptions.length +
      2 * max S.reply.maxPending 1)

namespace Bus

variable {subs : List Subscription} {b b' : Bus Bytes}

/-- A publish fills no queue beyond its room. -/
theorem Bounded.publish_take (h : Bounded subs b) (n : ℕ) (topic : String) (payload : Bytes) :
    Bounded subs (b.publish (subs.take n) topic payload) := by
  intro i
  have hi := h i
  simp only [publish]
  cases hs : (subs.take n)[i]? with
  | none => exact hi
  | some s =>
    have hsub : subs[i]? = some s := by
      rw [List.getElem?_take] at hs
      split at hs
      · exact hs
      · cases hs
    by_cases haccepts : accepts s (b.queues i) topic = true
    · have hroom : (b.queues i).length < max s.depth 1 :=
        of_decide_eq_true (Bool.and_eq_true_iff.mp haccepts).2
      simp only [haccepts, if_true, List.length_append, List.length_singleton, hsub,
        Option.map_some, Option.getD_some, Subscription.room]
      omega
    · simpa [haccepts] using hi

/-- A publish to all subscriptions fills no queue beyond its room. -/
theorem Bounded.publish (h : Bounded subs b) (topic : String) (payload : Bytes) :
    Bounded subs (b.publish subs topic payload) := by
  simpa using h.publish_take subs.length topic payload

/-- A reception fills no queue. -/
theorem Bounded.recv (h : Bounded subs b) {i : ℕ} {c : Copy Bytes}
    (hrecv : b.recv i = some (c, b')) : Bounded subs b' := by
  obtain ⟨-, -, rest, hqueue, hqueues⟩ := recv_eq_some hrecv
  intro j
  rw [hqueues]
  by_cases hji : j = i
  · subst hji
    have hj := h j
    rw [hqueue, List.length_cons] at hj
    rw [Function.update_self]
    omega
  · rw [Function.update_of_ne hji]
    exact h j

/-- The queues together hold no more than their rooms. -/
theorem Bounded.queued_le (h : Bounded subs b) :
    b.queued subs.length ≤ (subs.map Subscription.room).sum := by
  rw [← Collections.sum_range_getElem?]
  exact Finset.sum_le_sum fun i _ => h i

end Bus

/-! ### The uplink -/

namespace Uplink

/-- No place of the uplink holds more than it may. -/
structure Bounded (S : Setup Bytes ρ) (s : Uplink Bytes) : Prop where
  bus : s.bus.Bounded S.deviceSubscriptions
  buffer : s.policy.evtBuffer.length ≤ S.policy.evtBufferMax

variable {S : Setup Bytes ρ} {s s' : Uplink Bytes} {a : UplinkAction Bytes}

/-- No step fills a queue beyond its room. -/
theorem PumpMove.bounded (h : s.bus.Bounded S.deviceSubscriptions)
    {pumps : ℕ → UplinkPhase Bytes} {bus : Bus Bytes} (hmove : PumpMove S s a pumps bus) :
    bus.Bounded S.deviceSubscriptions := by
  cases hmove with
  | keep => exact h
  | publish topic payload => exact h.publish topic payload
  | refuse i c bus hrecv => exact h.recv hrecv
  | hand i c bus m hidle hrecv => exact h.recv hrecv
  | advance => exact h

end Uplink

/-- No move fills the replay buffer beyond its bound. -/
theorem Flow.buffer_le_of_move [Inhabited ρ] {S : Setup Bytes ρ} {f f' : Flow Bytes}
    {a : UplinkAction Bytes} {bumps : List Bump} (h : f.buffer.length ≤ S.policy.evtBufferMax)
    (hmove : Move S f a f' bumps) : f'.buffer.length ≤ S.policy.evtBufferMax := by
  cases hmove with
  | store a i m hload hevt henabled hroom =>
    rw [List.length_append, List.length_singleton]
    exact hroom
  | evict a i m oldest rest hload hevt henabled hfull hbuffer =>
    rw [hbuffer, List.length_cons] at h
    rw [List.length_append, List.length_singleton]
    exact h
  | pop a m rest hheld hbuffer =>
    rw [hbuffer, List.length_cons] at h
    exact (Nat.le_succ _).trans h
  | requeue a m hheld hroom =>
    rw [List.length_cons]
    exact hroom
  | _ => exact h

namespace Uplink

variable {S : Setup Bytes ρ} {s : Uplink Bytes} [Inhabited ρ]

/-- The uplink holds no more than it may, from the start of the relay to the end of the process. -/
theorem kept_bounded (S : Setup Bytes ρ) : Kept S fun s => s.Books S ∧ s.Bounded S where
  start siteUp := ⟨books_start S siteUp, fun _ => Nat.zero_le _, Nat.zero_le _⟩
  step s a s' bumps h hstep := by
    obtain ⟨hbooks, hmove⟩ := h.1.step hstep
    exact ⟨hbooks, (step_pumpMove hstep).bounded h.2.bus, Flow.buffer_le_of_move h.2.buffer hmove⟩
  publish s n topic payload h :=
    ⟨(kept_books S).publish s n topic payload h.1, h.2.bus.publish_take n topic payload, h.2.buffer⟩

omit [Inhabited ρ] in
/-- What a bounded uplink holds. -/
theorem Bounded.holdings_le (h : s.Bounded S) :
    s.holdings S ≤ (S.deviceSubscriptions.map Subscription.room).sum +
      S.deviceSubscriptions.length + S.policy.evtBufferMax + 1 := by
  have hqueues := h.bus.queued_le
  have hbuffer := h.buffer
  have hpumps : ∑ i ∈ Finset.range S.deviceSubscriptions.length, (s.pumps i).load.length ≤
      S.deviceSubscriptions.length := by
    have hone : ∀ i ∈ Finset.range S.deviceSubscriptions.length, (s.pumps i).load.length ≤ 1 := by
      intro i _
      cases s.pumps i <;> simp
    simpa using Finset.sum_le_card_nsmul _ _ 1 hone
  have hheld : s.watcher.held.toList.length ≤ 1 := by
    cases s.watcher.held <;> simp
  unfold holdings
  omega

end Uplink

/-! ### The downlink -/

namespace Downlink

/-- No place of the downlink holds more than it may. -/
structure Bounded (S : Setup Bytes ρ) (s : Downlink Bytes) : Prop where
  bus : s.bus.Bounded S.siteSubscriptions
  maxPending : s.correlator.maxPending = max S.reply.maxPending 1
  pending : s.correlator.pending.length ≤ s.correlator.maxPending
  sweeper : s.sweeper.length ≤ s.correlator.maxPending
  inbox : ∀ k, (s.inbox k).length ≤ 1

variable {S : Setup Bytes ρ} {s s' : Downlink Bytes} {a : DownlinkAction Bytes} {bumps : List Bump}
  [Inhabited ρ]

/-- The bound of the map never changes. -/
theorem Move.maxPending (hmove : Move S s a s' bumps) :
    s'.correlator.maxPending = s.correlator.maxPending := by
  cases hmove <;> rfl

/-- A command finds room in the map, or makes some. -/
theorem Move.pending_le (h : s.correlator.pending.length ≤ s.correlator.maxPending)
    (hmove : Move S s a s' bumps) :
    s'.correlator.pending.length ≤ s.correlator.maxPending := by
  cases hmove with
  | record i mint now m msg site bytes hpump hdecode hreply hencode hroom =>
    simp only [Downlink.record, setPump, setPending, List.length_append, List.length_singleton]
    exact hroom
  | replace i mint now m msg site bytes oldest p rest hpump hdecode hreply hencode hpending =>
    rw [hpending, List.length_cons] at h
    simp only [Downlink.record, setPump, setPending, List.length_append, List.length_singleton]
    exact h
  | panic i mint now m pending hpump hoverflow hpending =>
    subst hpending
    exact (s.correlator.evictOldest_sublist).length_le.trans h
  | abandon i effect m t hpump => exact (List.length_filter_le _ _).trans h
  | sweep now hidle =>
    simp only [ReplyCorrelator.sweep, List.length_drop]
    omega
  | relay k t payload bytes p before after hphase hpending
  | discard k t payload reason p before after hphase hpending =>
    simp only [hpending, List.length_append, List.length_cons] at h
    simp only [Downlink.record, setReplyPump, setPending, List.length_append]
    omega
  | _ => exact h

/-- A step fills no queue beyond its room. -/
theorem Move.bounded (h : s.bus.Bounded S.siteSubscriptions) (hmove : Move S s a s' bumps) :
    s'.bus.Bounded S.siteSubscriptions := by
  cases hmove with
  | publish topic payload => exact h.publish topic payload
  | refuse i c bus reason hpump hrecv => exact h.recv hrecv
  | forward i c bus bytes hpump hrecv => exact h.recv hrecv
  | _ => exact h

/-- A step fills no inbox with more than one message. -/
theorem inbox_le_of_step (h : ∀ k, (s.inbox k).length ≤ 1)
    (hstep : s.step S a = some (s', bumps)) (k : ℕ) : (s'.inbox k).length ≤ 1 := by
  by_cases hrecv : ∃ j, a = .replyRecv j
  · obtain ⟨j, rfl⟩ := hrecv
    simp only [step, replyRecv] at hstep
    split at hstep
    · rename_i t subscription hphase
      split at hstep
      · cases hstep
      · rename_i payload rest hinbox
        cases hstep
        have hone := h subscription
        rw [hinbox, List.length_cons] at hone
        change (Function.update s.inbox subscription rest k).length ≤ 1
        by_cases hk : k = subscription
        · subst hk
          rw [Function.update_self]
          omega
        · rw [Function.update_of_ne hk]
          exact h k
    · cases hstep
  · cases step_move hstep with
    | arrive j => exact absurd ⟨j, rfl⟩ hrecv
    | reply t payload =>
      change (if (k, t) ∈ s.subscriptions ∧ (s.inbox k).isEmpty then [payload]
        else s.inbox k).length ≤ 1
      split
      · exact Nat.le_refl 1
      · exact h k
    | _ => exact h k

/-- The sweep takes no more topics than the map has entries. -/
theorem Move.sweeper_le (h : s.sweeper.length ≤ s.correlator.maxPending)
    (hpending : s.correlator.pending.length ≤ s.correlator.maxPending)
    (hmove : Move S s a s' bumps) : s'.sweeper.length ≤ s.correlator.maxPending := by
  cases hmove with
  | sweep now hidle =>
    simp only [ReplyCorrelator.sweep, List.length_map, List.length_take]
    exact (Nat.min_le_right _ _).trans hpending
  | swept outcome t rest hsweeper =>
    rw [hsweeper, List.length_cons] at h
    exact (Nat.le_succ _).trans h
  | _ => exact h

/-- The downlink holds no more than it may, from the start of the relay to the end of the
process. -/
theorem kept_bounded (S : Setup Bytes ρ) : Kept S (Bounded S) where
  start := ⟨fun _ => Nat.zero_le _, rfl, Nat.zero_le _, Nat.zero_le _, fun _ => Nat.zero_le _⟩
  step s a s' bumps h hstep := by
    have hmove := step_move hstep
    have hmax := hmove.maxPending
    exact ⟨hmove.bounded h.bus, hmax.trans h.maxPending, hmax ▸ hmove.pending_le h.pending,
      hmax ▸ hmove.sweeper_le h.sweeper h.pending, inbox_le_of_step h.inbox hstep⟩
  publish _ n topic payload h :=
    ⟨h.bus.publish_take n topic payload, h.maxPending, h.pending, h.sweeper, h.inbox⟩
  cut _ _ _ _ h _ := ⟨h.bus, h.maxPending, h.pending, h.sweeper, h.inbox⟩

omit [Inhabited ρ] in
/-- What a bounded downlink holds. -/
theorem Bounded.holdings_le (h : s.Bounded S) :
    s.holdings S ≤ (S.siteSubscriptions.map Subscription.room).sum +
      S.siteSubscriptions.length + 2 * max S.reply.maxPending 1 := by
  have hqueues := h.bus.queued_le
  have hpending := h.maxPending ▸ h.pending
  have hsweeper := h.maxPending ▸ h.sweeper
  have hpumps : ∑ i ∈ Finset.range S.siteSubscriptions.length, (s.pumps i).commands ≤
      S.siteSubscriptions.length := by
    have hone : ∀ i ∈ Finset.range S.siteSubscriptions.length, (s.pumps i).commands ≤ 1 := by
      intro i _
      cases s.pumps i <;> simp [DownlinkPhase.commands]
    simpa using Finset.sum_le_card_nsmul _ _ 1 hone
  unfold holdings
  omega

end Downlink

/-- What waits in the relay, the reply pumps apart, is bounded.  Whatever is published on the two
brokers, however long the link is down and however slow the calls return: in every state of the
process, each of these places holds no more than the configuration has room for, and so do all of
them together: the queues of the filters, the pumps, the replay buffer with the event under replay,
the correlation map, and the topics that the sweep has taken from it.  No reply subscription holds
more than one reply, but the reply pumps and their subscriptions are not counted. -/
theorem holdings_bounded [Inhabited ρ] (S : Setup Bytes ρ) {p : Process Bytes}
    (h : (Process.system S).Reachable System.anyStep p) {io : RelayIo Bytes}
    (hio : p.io = some io) :
    io.up.Bounded S ∧ io.down.Bounded S ∧
      io.up.holdings S + io.down.holdings S ≤ S.capacity := by
  have hup := (Process.uplink_invariant (Uplink.kept_bounded S) h io hio).2
  have hdown := Process.downlink_invariant (Downlink.kept_bounded S) h io hio
  have huplink := hup.holdings_le
  have hdownlink := hdown.holdings_le
  refine ⟨hup, hdown, ?_⟩
  unfold Setup.capacity
  omega

/-- The default configuration has room for no more than 4855 messages, entries and topics, and holds
some after the sample life. -/
theorem holdings_bounded_gw01 : ∃ io : RelayIo (Message Unit), io.up.delivered.length = 1 ∧
    io.up.holdings Setup.gw01 + io.down.holdings Setup.gw01 ≤ 4855 := by
  obtain ⟨p, io, hp, hio, hdelivered, -⟩ := Process.exists_lifeRun
  have hcapacity : Setup.gw01.capacity = 4855 := by decide +kernel
  exact ⟨io, hdelivered, hcapacity ▸ (holdings_bounded Setup.gw01 hp hio).2.2⟩

end UnsBridge
