import Mathlib.Algebra.Order.BigOperators.Group.Finset
import UnsBridge.Io.UplinkWatch
import UnsBridge.Lib.Runs
import UnsBridge.ReplyRouting

/-!
# How much the tasks do

The work of a state is the number of steps that the pumps, the reply pumps and the expiries of the
sweep may still take for what is in the queues, in the tasks and in the correlation map.  A publish
adds the work of the copies it makes, every step of a task does some, and nothing else adds any.
`work_bounded` concludes that the tasks never spin: a run has no more of their steps than there was
work at its start and has come in since.  And they never get stuck: where none of them can take a
step, everything has been relayed.
-/

namespace UnsBridge

open TopicFilter Transition

variable {Bytes ρ : Type}

/-- Whether an action is the step of a pump. -/
def UplinkAction.isWork : UplinkAction Bytes → Bool
  | .recv _ | .relayUp _ _ | .published _ _ => true
  | .publish _ _ | .link _ | .watch | .watchPublished _ => false

/-- Whether an action is the step of a pump or of a reply pump, or an expiry of the sweep. -/
def DownlinkAction.isWork : DownlinkAction Bytes → Bool
  | .publish _ _ | .reply _ _ | .sweep _ => false
  | _ => true

/-- Whether an action does work. -/
def RelayIoAction.isWork : RelayIoAction Bytes → Bool
  | .up a => a.isWork
  | .down a => a.isWork

/-- The steps that a pump takes for the message it holds. -/
def UplinkPhase.work : UplinkPhase Bytes → ℕ
  | .idle => 0
  | .publishing _ => 1
  | .handed _ => 2

/-- The steps that a pump takes for the command it holds, and its reply pump after it. -/
def DownlinkPhase.work : DownlinkPhase Bytes → ℕ
  | .idle | .dead => 0
  | .publishing _ => 1
  | .dropping _ _ => 2
  | .checking _ _ _ => 6
  | .subscribing _ _ => 7
  | .expiring _ _ _ => 8
  | .forwarded _ => 10

/-- The steps that a reply pump takes. -/
def ReplyPhase.work : ReplyPhase Bytes → ℕ
  | .absent | .done => 0
  | .settling _ => 1
  | .publishing _ => 2
  | .received _ _ => 3
  | .waiting _ _ => 4

/-- The number of subscriptions that match a topic. -/
def matching (subs : List Subscription) (topic : String) : ℕ :=
  subs.countP fun s => topicMatches s.filter topic

/-- The length of the queues of the first `n` subscriptions. -/
def Bus.queued (n : ℕ) (b : Bus Bytes) : ℕ := ∑ i ∈ Finset.range n, (b.queues i).length

/-- The work of the uplink: a copy takes three steps. -/
def Uplink.work (S : Setup Bytes ρ) (s : Uplink Bytes) : ℕ :=
  3 * s.bus.queued S.deviceSubscriptions.length +
    ∑ i ∈ Finset.range S.deviceSubscriptions.length, (s.pumps i).work

/-- The work of the downlink: a command takes eleven steps, its expiry included. -/
def Downlink.work (S : Setup Bytes ρ) (s : Downlink Bytes) : ℕ :=
  11 * s.bus.queued S.siteSubscriptions.length +
    ∑ i ∈ Finset.range S.siteSubscriptions.length, (s.pumps i).work +
    ∑ k ∈ Finset.range s.nextReplyPump, (s.replyPumps k).work +
    s.correlator.pending.length + s.sweeper.length

/-- The work of a state. -/
def RelayIo.work (S : Setup Bytes ρ) (s : RelayIo Bytes) : ℕ := s.up.work S + s.down.work S

/-- The work that comes in with a publish. -/
def RelayIoAction.arrivals (S : Setup Bytes ρ) : RelayIoAction Bytes → ℕ
  | .up (.publish topic _) => 3 * matching S.deviceSubscriptions topic
  | .down (.publish topic _) => 11 * matching S.siteSubscriptions topic
  | _ => 0

/-! ### The queues -/

namespace Bus

variable {b b' : Bus Bytes}

/-- A publish makes at most one copy for each subscription that matches. -/
theorem queued_publish_le (subs : List Subscription) (b : Bus Bytes) (topic : String)
    (payload : Bytes) :
    (b.publish subs topic payload).queued subs.length ≤
      b.queued subs.length + matching subs topic := by
  let matched : Subscription → ℕ := fun s => (topicMatches s.filter topic).toNat
  have hone : ∀ i ∈ Finset.range subs.length, ((b.publish subs topic payload).queues i).length ≤
      (b.queues i).length + (subs[i]?.map matched).getD 0 := by
    intro i _
    simp only [publish]
    cases hs : subs[i]? with
    | none => simp
    | some s =>
      by_cases haccepts : accepts s (b.queues i) topic = true
      · have hmatch := (Bool.and_eq_true_iff.mp haccepts).1
        simp [haccepts, matched, hmatch]
      · simp [haccepts]
  calc (b.publish subs topic payload).queued subs.length
      ≤ ∑ i ∈ Finset.range subs.length, ((b.queues i).length + (subs[i]?.map matched).getD 0) :=
        Finset.sum_le_sum hone
    _ = b.queued subs.length + matching subs topic := by
        rw [Finset.sum_add_distrib, Collections.sum_range_getElem?, matching,
          Collections.countP_eq_sum, queued]

/-- A reception takes one copy from the queues. -/
theorem queued_recv {i n : ℕ} {c : Copy Bytes} (hi : i < n) (h : b.recv i = some (c, b')) :
    b'.queued n + 1 = b.queued n := by
  obtain ⟨-, -, rest, hqueue, hqueues⟩ := recv_eq_some h
  have hsum := Collections.sum_update (Finset.range n) (fun _ => List.length) b.queues
    (Finset.mem_range.mpr hi) rest
  simp only [hqueue, List.length_cons] at hsum
  unfold queued
  rw [hqueues]
  omega

/-- Only subscriptions have something to receive. -/
theorem Sound.lt_of_recv {subs : List Subscription} (hb : Sound subs b) {i : ℕ} {c : Copy Bytes}
    (h : b.recv i = some (c, b')) : i < subs.length := by
  obtain ⟨-, -, rest, hqueue, -⟩ := recv_eq_some h
  obtain ⟨-, -, s, hs, -⟩ := hb.faithful i c (by simp [log, hqueue])
  exact (List.getElem?_eq_some_iff.mp hs).1

end Bus

/-! ### The uplink -/

namespace Uplink

/-- What a step of the uplink does to its pumps and to their queues. -/
inductive PumpMove (S : Setup Bytes ρ) (s : Uplink Bytes) :
    UplinkAction Bytes → (ℕ → UplinkPhase Bytes) → Bus Bytes → Prop
  /-- Nothing. -/
  | keep (a : UplinkAction Bytes) (ha : a.isWork = false) : PumpMove S s a s.pumps s.bus
  /-- A publish on the device bus. -/
  | publish (topic : String) (payload : Bytes) :
      PumpMove S s (.publish topic payload) s.pumps
        (s.bus.publish S.deviceSubscriptions topic payload)
  /-- A received message is not forwarded. -/
  | refuse (i : ℕ) (c : Copy Bytes) (bus : Bus Bytes) (hrecv : s.bus.recv i = some (c, bus)) :
      PumpMove S s (.recv i) s.pumps bus
  /-- A received message is handed to `relay_up`. -/
  | hand (i : ℕ) (c : Copy Bytes) (bus : Bus Bytes) (m : Forwarded Bytes)
      (hidle : s.pumps i = .idle) (hrecv : s.bus.recv i = some (c, bus)) :
      PumpMove S s (.recv i) (Function.update s.pumps i (.handed m)) bus
  /-- A pump goes on with its message. -/
  | advance (a : UplinkAction Bytes) (i : ℕ) (phase : UplinkPhase Bytes) (ha : a.isWork = true)
      (hless : phase.work < (s.pumps i).work) :
      PumpMove S s a (Function.update s.pumps i phase) s.bus

variable {S : Setup Bytes ρ} {s s' : Uplink Bytes} {a : UplinkAction Bytes} {bumps : List Bump}

/-- A push is the end of the work on a message. -/
theorem Pushes.pumpMove {i : ℕ} {m : Forwarded Bytes} (h : s.Pushes a i m) :
    PumpMove S s a (Function.update s.pumps i .idle) s.bus := by
  cases h with
  | admitted i now m hpump => exact .advance _ i _ rfl (by simp [hpump, UplinkPhase.work])
  | fail i m hpump => exact .advance _ i _ rfl (by simp [hpump, UplinkPhase.work])

variable [Inhabited ρ]

/-- Every step of the uplink is one of these. -/
theorem step_pumpMove (h : s.step S a = some (s', bumps)) : PumpMove S s a s'.pumps s'.bus := by
  cases step_move h with
  | publish topic payload => exact .publish topic payload
  | refuse i cls c bus reason hpump hcls hrecv => exact .refuse i c bus hrecv
  | hand i cls c bus bytes m hpump hcls hrecv => exact .hand i c bus m hpump hrecv
  | goLive i now m policy hpump | capped i now m policy hpump =>
    exact .advance _ i _ rfl (by simp [hpump, UplinkPhase.work])
  | disabled i now m hpump | disconnected i now m hpump =>
    exact .advance _ i _ rfl (by simp [hpump, UplinkPhase.work])
  | deliver i m hpump | lose i m hpump =>
    exact .advance _ i _ rfl (by simp [hpump, UplinkPhase.work])
  | store a i m hpush | evict a i m oldest rest hpush | reject a i m hpush => exact hpush.pumpMove
  | _ => exact .keep _ rfl

omit [Inhabited ρ] in
/-- A pump that has work to do belongs to a subscription. -/
theorem Books.lt_of_work [Inhabited ρ] (h : s.Books S) {i : ℕ} (hwork : 0 < (s.pumps i).work) :
    i < S.deviceSubscriptions.length := by
  cases hpump : s.pumps i with
  | idle => simp [hpump, UplinkPhase.work] at hwork
  | handed m => exact h.placed.lt (m := m) (by simp [flow, hpump])
  | publishing m => exact h.placed.lt (m := m) (by simp [flow, hpump])

/-- A step of a pump does work, and only a publish brings some in. -/
theorem PumpMove.work_le (hs : s.Books S) {pumps : ℕ → UplinkPhase Bytes} {bus : Bus Bytes}
    (h : PumpMove S s a pumps bus) :
    3 * bus.queued S.deviceSubscriptions.length +
        ∑ i ∈ Finset.range S.deviceSubscriptions.length, (pumps i).work + a.isWork.toNat ≤
      s.work S + (RelayIoAction.up a).arrivals S := by
  have hupdate : ∀ {i : ℕ} (phase : UplinkPhase Bytes), i < S.deviceSubscriptions.length →
      ∑ j ∈ Finset.range S.deviceSubscriptions.length, (Function.update s.pumps i phase j).work +
        (s.pumps i).work =
      ∑ j ∈ Finset.range S.deviceSubscriptions.length, (s.pumps j).work + phase.work :=
    fun phase hi => Collections.sum_update _ (fun _ => UplinkPhase.work) s.pumps
      (Finset.mem_range.mpr hi) phase
  unfold work
  cases h with
  | keep a ha =>
    rw [ha]
    exact Nat.le_add_right _ _
  | publish topic payload =>
    have hqueued := s.bus.queued_publish_le S.deviceSubscriptions topic payload
    simp only [UplinkAction.isWork, RelayIoAction.arrivals, Bool.toNat_false]
    omega
  | refuse i c bus hrecv =>
    have hqueued := Bus.queued_recv (hs.wf.bus.lt_of_recv hrecv) hrecv
    simp only [UplinkAction.isWork, Bool.toNat_true]
    omega
  | hand i c bus m hidle hrecv =>
    have hi := hs.wf.bus.lt_of_recv hrecv
    have hqueued := Bus.queued_recv hi hrecv
    have hsum := hupdate (.handed m) hi
    simp only [hidle, UplinkPhase.work] at hsum
    simp only [UplinkAction.isWork, Bool.toNat_true, UplinkPhase.work]
    omega
  | advance _ i phase ha hless =>
    have hsum := hupdate phase (hs.lt_of_work (Nat.zero_lt_of_lt hless))
    rw [ha, Bool.toNat_true]
    omega

end Uplink

/-! ### The downlink -/

namespace Downlink

variable {S : Setup Bytes ρ} {s s' : Downlink Bytes} {a : DownlinkAction Bytes} {bumps : List Bump}

/-- The work of the pumps when one of them goes on and leaves more than `n` steps behind it. -/
theorem Books.sum_pumps_lt (h : s.Books S) {i : ℕ} {phase : DownlinkPhase Bytes}
    (hpump : s.pumps i = phase) (next : DownlinkPhase Bytes) (n : ℕ)
    (hwork : next.work + n < phase.work) :
    ∑ j ∈ Finset.range S.siteSubscriptions.length, (Function.update s.pumps i next j).work + n <
      ∑ j ∈ Finset.range S.siteSubscriptions.length, (s.pumps j).work := by
  have hi : i < S.siteSubscriptions.length := by
    by_contra hle
    rw [← hpump, h.idle i (Nat.le_of_not_lt hle)] at hwork
    cases hwork
  have hsum := Collections.sum_update _ (fun _ => DownlinkPhase.work) s.pumps
    (Finset.mem_range.mpr hi) next
  rw [hpump] at hsum
  omega

/-- The work of the reply pumps when one of them goes on and leaves more than `n` steps behind
it. -/
theorem Books.sum_replyPumps_lt (h : s.Books S) {k : ℕ} {phase : ReplyPhase Bytes}
    (hphase : s.replyPumps k = phase) (next : ReplyPhase Bytes) (n : ℕ)
    (hwork : next.work + n < phase.work) :
    ∑ j ∈ Finset.range s.nextReplyPump, (Function.update s.replyPumps k next j).work + n <
      ∑ j ∈ Finset.range s.nextReplyPump, (s.replyPumps j).work := by
  have hk : k < s.nextReplyPump := by
    by_contra hle
    rw [← hphase, h.absent k (Nat.le_of_not_lt hle)] at hwork
    cases hwork
  have hsum := Collections.sum_update _ (fun _ => ReplyPhase.work) s.replyPumps
    (Finset.mem_range.mpr hk) next
  rw [hphase] at hsum
  omega

variable [Inhabited ρ]

/-- A step of a task does work. -/
theorem Move.work_lt (hs : s.Books S) (h : Move S s a s' bumps) (ha : a.isWork = true) :
    s'.work S < s.work S := by
  cases h with
  | publish => cases ha
  | sweep => cases ha
  | reply => cases ha
  | refuse i c bus reason hpump hrecv =>
    have hqueued := Bus.queued_recv (hs.bus.lt_of_recv hrecv) hrecv
    simp only [work]
    omega
  | forward i c bus bytes hpump hrecv =>
    have hi := hs.bus.lt_of_recv hrecv
    have hqueued := Bus.queued_recv hi hrecv
    have hsum := Collections.sum_update (Finset.range S.siteSubscriptions.length)
      (fun _ => DownlinkPhase.work) s.pumps (Finset.mem_range.mpr hi) (.forwarded ⟨c, bytes⟩)
    rw [hpump, DownlinkPhase.work, DownlinkPhase.work] at hsum
    simp only [work, setPump]
    omega
  | pass i mint now m msg hpump =>
    have hsum := hs.sum_pumps_lt hpump (.publishing m) 8 (Nat.lt_succ_self _)
    simp only [work, publishCommand, Downlink.record, setPump]
    omega
  | malformed i mint now m hpump =>
    have hsum := hs.sum_pumps_lt hpump (.idle) 9 (Nat.lt_succ_self _)
    simp only [work, setPump]
    omega
  | record i mint now m msg site bytes hpump =>
    have hsum := hs.sum_pumps_lt hpump (.subscribing { m with bytes } mint) 2 (Nat.lt_succ_self _)
    simp only [work, Downlink.record, setPump, setPending, List.length_append,
      List.length_singleton]
    omega
  | replace i mint now m msg site bytes oldest p rest hpump _ _ _ hpending =>
    have hsum := hs.sum_pumps_lt hpump (.expiring oldest { m with bytes } mint) 1
      (Nat.lt_succ_self _)
    have hlength := congrArg List.length hpending
    rw [List.length_cons] at hlength
    simp only [work, Downlink.record, setPump, setPending, List.length_append,
      List.length_singleton]
    omega
  | panic i mint now m pending hpump hoverflow hpending =>
    have hsum := hs.sum_pumps_lt hpump (.dead) 9 (Nat.lt_succ_self _)
    have hlength := s.correlator.evictOldest_sublist.length_le
    rw [← hpending] at hlength
    simp only [work, setPump, setPending]
    omega
  | expired i outcome oldest m t hpump =>
    have hsum := hs.sum_pumps_lt hpump (.subscribing m t) 0 (Nat.lt_succ_self _)
    simp only [work, unsubscribe, setPump]
    omega
  | subscribe i m t hpump =>
    have hsum := hs.sum_pumps_lt hpump (.checking m t s.nextSubscription) 0 (Nat.lt_succ_self _)
    simp only [work, Downlink.record, setPump]
    omega
  | abandon i effect m t hpump =>
    have hsum := hs.sum_pumps_lt hpump (.idle) 6 (Nat.lt_succ_self _)
    have hlength := List.length_filter_le (fun p => decide (p.1 ≠ t)) s.correlator.pending
    simp only [work, setPump, ReplyCorrelator.abandon]
    omega
  | spawn i m t k hpump =>
    have hsum := hs.sum_pumps_lt hpump (.publishing m) 4 (Nat.lt_succ_self _)
    have hreply := Collections.sum_range_spawn (w := ReplyPhase.work) (f := s.replyPumps)
      (n := s.nextReplyPump) (.waiting t k)
    rw [ReplyPhase.work] at hreply
    simp only [work, publishCommand, Downlink.record, setPump, setReplyPump]
    omega
  | undo i m t k hpump =>
    have hsum := hs.sum_pumps_lt hpump (.dropping m t) 3 (Nat.lt_succ_self _)
    simp only [work, setPump]
    omega
  | dropped i outcome m t hpump =>
    have hsum := hs.sum_pumps_lt hpump (.publishing m) 0 (Nat.lt_succ_self _)
    simp only [work, publishCommand, Downlink.record, unsubscribe, setPump]
    omega
  | settle i outcome m b hpump =>
    have hsum := hs.sum_pumps_lt hpump (.idle) 0 (Nat.lt_succ_self _)
    simp only [work, setPump]
    omega
  | swept outcome t rest hsweeper =>
    have hlength := congrArg List.length hsweeper
    rw [List.length_cons] at hlength
    simp only [work, unsubscribe]
    omega
  | arrive k t subscription payload inbox hphase =>
    have hsum := hs.sum_replyPumps_lt hphase (.received t payload) 0 (Nat.lt_succ_self _)
    simp only [work, Downlink.record, setReplyPump]
    omega
  | close k t subscription hphase =>
    have hsum := hs.sum_replyPumps_lt hphase (.done) 3 (Nat.lt_succ_self _)
    simp only [work, setReplyPump]
    omega
  | stray k t payload hphase =>
    have hsum := hs.sum_replyPumps_lt hphase (.done) 2 (Nat.lt_succ_self _)
    simp only [work, setReplyPump]
    omega
  | relay k t payload bytes p before after hphase hpending =>
    have hsum := hs.sum_replyPumps_lt hphase (.publishing t) 0 (Nat.lt_succ_self _)
    have hlength := congrArg List.length hpending
    simp only [List.length_append, List.length_cons] at hlength
    simp only [work, Downlink.record, setReplyPump, setPending, List.length_append]
    omega
  | discard k t payload reason p before after hphase hpending =>
    have hsum := hs.sum_replyPumps_lt hphase (.settling t) 1 (Nat.lt_succ_self _)
    have hlength := congrArg List.length hpending
    simp only [List.length_append, List.length_cons] at hlength
    simp only [work, Downlink.record, setReplyPump, setPending, List.length_append]
    omega
  | relayed k outcome t b hphase =>
    have hsum := hs.sum_replyPumps_lt hphase (.settling t) 0 (Nat.lt_succ_self _)
    simp only [work, setReplyPump]
    omega
  | settled k outcome t hphase =>
    have hsum := hs.sum_replyPumps_lt hphase (.done) 0 (Nat.lt_succ_self _)
    simp only [work, unsubscribe, setReplyPump]
    omega

/-- Only a publish brings work in. -/
theorem Move.work_le (hs : s.Books S) (h : Move S s a s' bumps) :
    s'.work S + a.isWork.toNat ≤ s.work S + (RelayIoAction.down a).arrivals S := by
  cases ha : a.isWork with
  | true => exact Nat.le_add_right_of_le (h.work_lt hs ha)
  | false =>
    cases h with
    | publish topic payload =>
      have hqueued := s.bus.queued_publish_le S.siteSubscriptions topic payload
      simp only [work, RelayIoAction.arrivals, Bool.toNat_false]
      omega
    | sweep now hidle =>
      have hlength := congrArg List.length (List.take_append_drop
        (s.correlator.pending.findIdx fun p => decide (now < p.2.deadline)) s.correlator.pending)
      rw [List.length_append] at hlength
      simp only [work, hidle, ReplyCorrelator.sweep, List.length_map, List.length_nil,
        Bool.toNat_false, RelayIoAction.arrivals]
      omega
    | reply => exact Nat.le_add_right _ _
    | _ => cases ha

end Downlink

/-! ### Where no task can take a step -/

/-- Everything on the device bus has been relayed, buffered or dropped. -/
structure Uplink.AtRest (s : Uplink Bytes) : Prop where
  pumps : ∀ i, s.pumps i = .idle
  queues : ∀ i, s.bus.queues i = []

/-- All commands and replies have been dealt with: a pump is idle and its queue empty, unless it has
panicked, and a reply pump that is left waits on a subscription of its topic. -/
structure Downlink.AtRest (s : Downlink Bytes) : Prop where
  pumps : ∀ i, s.pumps i = .dead ∨ s.pumps i = .idle ∧ s.bus.queues i = []
  sweeper : s.sweeper = []
  replyPumps : ∀ k, s.replyPumps k = .absent ∨ s.replyPumps k = .done ∨ ∃ t subscription,
    s.replyPumps k = .waiting t subscription ∧ s.inbox subscription = [] ∧
      (subscription, t) ∈ s.subscriptions

variable [Inhabited ρ] {S : Setup Bytes ρ}

/-- A pump with a message or with a queue can take a step. -/
theorem Uplink.Books.atRest {s : Uplink Bytes} (h : s.Books S)
    (hstuck : ∀ a : UplinkAction Bytes, a.isWork = true → s.step S a = none) : s.AtRest := by
  have hidle : ∀ i, s.pumps i = .idle := by
    intro i
    cases hpump : s.pumps i with
    | idle => rfl
    | handed m =>
      have hnone := hstuck (.relayUp i 0) rfl
      cases hverdict : (s.policy.admitVerdict m.cls s.siteUp 0).1 <;>
        simp [Uplink.step, relayUp, hpump, hverdict] at hnone
    | publishing m =>
      have hnone := hstuck (.published i .ok) rfl
      simp [Uplink.step, relayUpPublished, hpump] at hnone
  refine ⟨hidle, fun i => ?_⟩
  cases hqueue : s.bus.queues i with
  | nil => rfl
  | cons c rest =>
    -- the queue belongs to a subscription, and its pump is idle
    have hnone := hstuck (.recv i) rfl
    obtain ⟨-, -, sub, hsub, -⟩ := h.wf.bus.faithful i c (by simp [Bus.log, hqueue])
    have hlt := (List.getElem?_eq_some_iff.mp hsub).1
    rw [Setup.deviceSubscriptions, List.length_map] at hlt
    have hentry := List.getElem?_eq_getElem hlt
    cases hdecide : S.engine.decide S.codec .uplink c.topic c.payload <;>
      simp [Uplink.step, recv, hidle i, Setup.pumpClass, hentry, Bus.recv, hqueue, hdecide] at hnone

/-- So can a pump with a command, the sweep with an expired topic, and a reply pump with a reply. -/
theorem Downlink.atRest_of_stuck {s : Downlink Bytes}
    (hstuck : ∀ a : DownlinkAction Bytes, a.isWork = true → s.step S a = none) : s.AtRest := by
  refine ⟨fun i => ?_, ?_, fun k => ?_⟩
  · cases hpump : s.pumps i with
    | dead => exact Or.inl rfl
    | idle =>
      refine Or.inr ⟨rfl, ?_⟩
      cases hqueue : s.bus.queues i with
      | nil => rfl
      | cons c rest =>
        have hnone := hstuck (.recv i) rfl
        cases hdecide : S.engine.decide S.codec .downlink c.topic c.payload <;>
          simp [step, recv, hpump, Bus.recv, hqueue, hdecide] at hnone
    | forwarded m =>
      have hnone := hstuck (.rewriteDownlink i "" 0) rfl
      simp only [step, rewriteDownlink, hpump] at hnone
      split at hnone
      · cases hnone
      · cases hnone
      · cases hnone
      · split at hnone <;> cases hnone
    | expiring oldest m t =>
      have hnone := hstuck (.expired i .ok) rfl
      simp [step, expired, hpump] at hnone
    | subscribing m t =>
      have hnone := hstuck (.subscribed i .ok) rfl
      simp [step, subscribed, hpump] at hnone
    | checking m t subscription =>
      have hnone := hstuck (.check i) rfl
      cases hlive : s.correlator.contains t <;> simp [step, check, hpump, hlive] at hnone
    | dropping m t =>
      have hnone := hstuck (.dropped i .ok) rfl
      simp [step, dropped, hpump] at hnone
    | publishing m =>
      have hnone := hstuck (.published i .ok) rfl
      simp [step, published, hpump] at hnone
  · cases hsweeper : s.sweeper with
    | nil => rfl
    | cons t rest =>
      have hnone := hstuck (.swept .ok) rfl
      simp [step, swept, hsweeper] at hnone
  · cases hphase : s.replyPumps k with
    | absent => exact Or.inl rfl
    | done => exact Or.inr (Or.inl rfl)
    | waiting t subscription =>
      refine Or.inr (Or.inr ⟨t, subscription, rfl, ?_⟩)
      have hrecv := hstuck (.replyRecv k) rfl
      have hclosed := hstuck (.replyClosed k) rfl
      cases hinbox : s.inbox subscription with
      | nil => simpa [step, replyClosed, hphase, hinbox] using hclosed
      | cons payload rest => simp [step, replyRecv, hphase, hinbox] at hrecv
    | received t payload =>
      have hnone := hstuck (.handleReply k) rfl
      simp only [step, handleReply, hphase] at hnone
      split at hnone
      · cases hnone
      · split at hnone <;> cases hnone
    | publishing t =>
      have hnone := hstuck (.replyPublished k .ok) rfl
      simp [step, replyPublished, hphase] at hnone
    | settling t =>
      have hnone := hstuck (.replySettled k .ok) rfl
      simp [step, replySettled, hphase] at hnone

/-- A step of a task of the relay does work, and only a publish brings some in. -/
theorem RelayIo.work_step {s s' : RelayIo Bytes} (hup : s.up.Books S) (hdown : s.down.Books S)
    {a : RelayIoAction Bytes} (h : s.step S a = some s') :
    s'.work S + a.isWork.toNat ≤ s.work S + a.arrivals S := by
  unfold RelayIo.work
  cases a with
  | up b =>
    obtain ⟨bumps, hs, hsame, -⟩ := RelayIo.step_up h
    have hwork := (Uplink.step_pumpMove hs).work_le hup
    rw [hsame]
    simp only [RelayIoAction.isWork, Uplink.work] at hwork ⊢
    omega
  | down b =>
    obtain ⟨bumps, hs, hsame, -⟩ := RelayIo.step_down h
    have hwork := (Downlink.step_move hs).work_le hdown
    rw [hsame]
    simp only [RelayIoAction.isWork]
    omega

/-- The tasks of the relay never spin and never get stuck.  In every run from a reachable state, the
steps that pumps, reply pumps and expiries take, and the work that is left, do not exceed the work
that was there and what has come in: three steps for each device subscription that a publish
matches, eleven for each site subscription.  And where none of them can take a step, whatever the
outcomes of its calls, every queue is empty and every message, command, reply and expiry has been
dealt with, but for the pumps that have panicked. -/
theorem work_bounded (S : Setup Bytes ρ) {s : RelayIo Bytes}
    (h : (RelayIo.system S).Reachable System.anyStep s) {as : List (RelayIoAction Bytes)}
    {t : RelayIo Bytes} (hrun : (RelayIo.system S).run s as = some t) :
    t.work S + as.countP RelayIoAction.isWork ≤
      s.work S + (as.map (RelayIoAction.arrivals S)).sum ∧
    ((∀ a : RelayIoAction Bytes, a.isWork = true → t.step S a = none) →
      t.up.AtRest ∧ t.down.AtRest) := by
  have hup : ∀ r, (RelayIo.system S).Reachable System.anyStep r → r.up.Books S := fun r hr =>
    Uplink.books (P := System.anyStep) (RelayIo.reachable_up (hr.mono fun _ _ _ _ _ => trivial))
  have hdown : ∀ r, (RelayIo.system S).Reachable System.anyStep r → r.down.Books S := fun r hr =>
    Downlink.books (P := System.anyStep) (RelayIo.reachable_down (hr.mono fun _ _ _ _ _ => trivial))
  constructor
  · rw [Collections.countP_eq_sum]
    exact h.run_potential (RelayIo.work S) _ _
      (fun r a r' hr hstep => RelayIo.work_step (hup r hr) (hdown r hr) hstep) hrun
  · intro hstuck
    refine ⟨(hup t (h.run hrun)).atRest fun a ha => ?_,
      Downlink.atRest_of_stuck (S := S) fun a ha => ?_⟩
    · exact Option.map_eq_none_iff.mp (hstuck (.up a) ha)
    · exact Option.map_eq_none_iff.mp (hstuck (.down a) ha)

/-- The command of the sample run and its reply take nine steps. -/
theorem work_bounded_gw01 : ∃ t : RelayIo (Message Unit),
    (RelayIo.system Setup.gw01).run (.start Setup.gw01 true) replyRun = some t ∧
    t.work Setup.gw01 + replyRun.countP RelayIoAction.isWork ≤
      (RelayIo.start Setup.gw01 true).work Setup.gw01 + 11 ∧
    replyRun.countP RelayIoAction.isWork = 9 := by
  have hsome : ((RelayIo.system Setup.gw01).run (.start .gw01 true) replyRun).isSome = true := by
    decide +kernel
  obtain ⟨t, ht⟩ := Option.isSome_iff_exists.mp hsome
  have harrivals : (replyRun.map (RelayIoAction.arrivals Setup.gw01)).sum = 11 := by decide +kernel
  refine ⟨t, ht, ?_, by decide +kernel⟩
  exact harrivals ▸ (work_bounded Setup.gw01 (.init ⟨true, rfl⟩) ht).1

end UnsBridge
