import Mathlib.Algebra.BigOperators.Group.Multiset.Defs
import Mathlib.Algebra.Order.Group.Multiset
import Mathlib.Tactic.Abel
import UnsBridge.Io.UplinkMoves

/-!
# The flow of messages through the uplink

`Flow` is the view of the uplink tasks that its delivery properties are about: where every message
is.  `Flow.Move` lists what a step can do to it, and `Uplink.Move.flow` shows that the steps of the
tasks do nothing else.  The bookkeeping of the messages and of the counters is built on the moves
alone, without going back to the tasks.
-/

namespace UnsBridge

open Transition

variable {Bytes ρ : Type}

/-- Where the messages of the uplink are. -/
structure Flow (Bytes : Type) where
  siteUp : Bool
  received : List (Copy Bytes)
  handed : List (Forwarded Bytes)
  delivered : List (Forwarded Bytes)
  discarded : List (Forwarded Bytes)
  buffer : List (Forwarded Bytes)
  held : Option (Forwarded Bytes)
  pumps : ℕ → UplinkPhase Bytes

/-- The flow of a state. -/
def Uplink.flow (s : Uplink Bytes) : Flow Bytes where
  siteUp := s.siteUp
  received := s.bus.received
  handed := s.handed
  delivered := s.delivered
  discarded := s.discarded
  buffer := s.policy.evtBuffer
  held := s.watcher.held
  pumps := s.pumps

/-- The policy that the relay is started with. -/
def Setup.policy (S : Setup Bytes ρ) : UplinkPolicy (Forwarded Bytes) := .fromConfig S.uplink

variable [Inhabited ρ]

/-- The message that the pump of its subscription makes of a copy. -/
structure Forwarded.From (S : Setup Bytes ρ) (m : Forwarded Bytes) (c : Copy Bytes) : Prop where
  publish : c.publish = m.publish
  subscription : c.subscription = m.subscription
  topic : c.topic = m.topic
  pumpClass : S.pumpClass m.subscription = some m.cls
  decided : S.engine.decide S.codec .uplink c.topic c.payload = .forward m.bytes

namespace Flow

/-- What a step of the uplink can do to the messages. -/
inductive Move (S : Setup Bytes ρ) (f : Flow Bytes) :
    UplinkAction Bytes → Flow Bytes → List Bump → Prop
  /-- Nothing. -/
  | quiet (a : UplinkAction Bytes) (up : Bool) : Move S f a { f with siteUp := up } []
  /-- A received message is not forwarded. -/
  | refuse (a : UplinkAction Bytes) (c : Copy Bytes) (reason : DropReason) :
      Move S f a { f with received := f.received ++ [c] } [.drop reason]
  /-- A received message is handed to `relay_up`. -/
  | hand (a : UplinkAction Bytes) (c : Copy Bytes) (m : Forwarded Bytes)
      (hidle : f.pumps m.subscription = .idle) (hfrom : m.From S c) :
      Move S f a { f with
        received := f.received ++ [c]
        handed := f.handed ++ [m]
        pumps := Function.update f.pumps m.subscription (.handed m) } []
  /-- A message is admitted and published live. -/
  | goLive (i : ℕ) (now : Instant) (m : Forwarded Bytes) (hpump : f.pumps i = .handed m)
      (henabled : S.policy.classEnabled m.cls = true) (hup : f.siteUp = true)
      (hempty : m.cls = .evt → 0 < S.policy.evtBufferMax → f.buffer = []) :
      Move S f (.relayUp i now) { f with pumps := Function.update f.pumps i (.publishing m) } []
  /-- A message is dropped, at its admission or after its failed publish. -/
  | lose (a : UplinkAction Bytes) (i : ℕ) (m : Forwarded Bytes) (b : Bump)
      (hload : (f.pumps i).load = [m])
      (hbump : b = .droppedDisabled m.cls ∨ b = .droppedDisconnected m.cls ∨ b = .droppedRate m.cls)
      (hlossy : m.cls = .evt → 0 < S.policy.evtBufferMax →
        S.policy.classEnabled .evt = false ∨ S.policy.hasRateCap .evt = true) :
      Move S f a { f with
        discarded := f.discarded ++ [m]
        pumps := Function.update f.pumps i .idle } [b]
  /-- A live publish succeeds. -/
  | deliver (a : UplinkAction Bytes) (i : ℕ) (m : Forwarded Bytes)
      (hpump : f.pumps i = .publishing m) :
      Move S f a { f with
        delivered := f.delivered ++ [m]
        pumps := Function.update f.pumps i .idle } [.uplinked m.cls]
  /-- An event joins the replay buffer. -/
  | store (a : UplinkAction Bytes) (i : ℕ) (m : Forwarded Bytes) (hload : (f.pumps i).load = [m])
      (hevt : m.cls = .evt)
      (henabled : f.pumps i = .publishing m ∨ S.policy.classEnabled m.cls = true)
      (hroom : f.buffer.length < S.policy.evtBufferMax) :
      Move S f a { f with
        buffer := f.buffer ++ [m]
        pumps := Function.update f.pumps i .idle } [.evtBuffered]
  /-- An event joins the full replay buffer, whose oldest event is dropped. -/
  | evict (a : UplinkAction Bytes) (i : ℕ) (m oldest : Forwarded Bytes)
      (rest : List (Forwarded Bytes)) (hload : (f.pumps i).load = [m]) (hevt : m.cls = .evt)
      (henabled : f.pumps i = .publishing m ∨ S.policy.classEnabled m.cls = true)
      (hfull : S.policy.evtBufferMax ≤ f.buffer.length) (hbuffer : f.buffer = oldest :: rest) :
      Move S f a { f with
        discarded := f.discarded ++ [oldest]
        buffer := rest ++ [m]
        pumps := Function.update f.pumps i .idle } [.evtBuffered, .evtBufferDropped]
  /-- The watcher pops the oldest event for its replay. -/
  | pop (a : UplinkAction Bytes) (m : Forwarded Bytes) (rest : List (Forwarded Bytes))
      (hheld : f.held = none) (hbuffer : f.buffer = m :: rest) :
      Move S f a { f with buffer := rest, held := some m } []
  /-- A replay succeeds. -/
  | replayed (a : UplinkAction Bytes) (m : Forwarded Bytes) (hheld : f.held = some m) :
      Move S f a { f with delivered := f.delivered ++ [m], held := none } [.evtReplayed]
  /-- A replay fails, and its event goes back to the front of the buffer. -/
  | requeue (a : UplinkAction Bytes) (m : Forwarded Bytes) (hheld : f.held = some m)
      (hroom : f.buffer.length < S.policy.evtBufferMax) :
      Move S f a { f with buffer := m :: f.buffer, held := none } []
  /-- A replay fails, and the buffer is full. -/
  | refuseRequeue (a : UplinkAction Bytes) (m : Forwarded Bytes) (hheld : f.held = some m)
      (hfull : S.policy.evtBufferMax ≤ f.buffer.length) :
      Move S f a { f with discarded := f.discarded ++ [m], held := none } [.evtBufferDropped]

end Flow

namespace Uplink

/-- The policy has the setup it was started with, and the device bus is sound. -/
structure Wf (S : Setup Bytes ρ) (s : Uplink Bytes) : Prop where
  policy : UplinkPolicy.SameSetup S.policy s.policy
  bus : s.bus.Sound S.deviceSubscriptions

variable {S : Setup Bytes ρ} {s s' : Uplink Bytes} {a : UplinkAction Bytes} {bumps : List Bump}

omit [Inhabited ρ] in
/-- A push concerns an event that a pump holds, and a relayed one if it has just been admitted. -/
theorem Pushes.event {i : ℕ} {m : Forwarded Bytes} (hwf : s.Wf S)
    (hcls : ∀ i, ∀ m ∈ (s.pumps i).load, S.pumpClass i = some m.cls) (h : s.Pushes a i m) :
    (s.pumps i).load = [m] ∧ m.cls = .evt ∧
      (s.pumps i = .publishing m ∨ S.policy.classEnabled m.cls = true) := by
  cases h with
  | admitted i now m hpump hverdict =>
    have hload : (s.pumps i).load = [m] := by rw [hpump]; rfl
    obtain ⟨k, hk⟩ := Option.isSome_iff_exists.mp
      (Setup.classIndex_isSome_of_pumpClass (hcls i m (by simp [hload])))
    have hcases := (s.policy.admitVerdict_cases hk s.siteUp now).2.2
    rw [hverdict] at hcases
    exact ⟨hload, hcases.2.1, Or.inr (hwf.policy.classEnabled _ ▸ hcases.1)⟩
  | fail i m hpump hevt => exact ⟨by rw [hpump]; rfl, hevt, Or.inl hpump⟩

omit [Inhabited ρ] in
/-- What `relay_up` says about a message, in terms of the setup. -/
theorem admit_cases {i : ℕ} {m : Forwarded Bytes} (hwf : s.Wf S)
    (hcls : ∀ i, ∀ m ∈ (s.pumps i).load, S.pumpClass i = some m.cls) (hpump : s.pumps i = .handed m)
    (now : Instant) :
    match (s.policy.admitVerdict m.cls s.siteUp now).1 with
    | .forward => S.policy.classEnabled m.cls = true ∧ s.siteUp = true ∧
        (m.cls = .evt → 0 < S.policy.evtBufferMax → s.policy.evtBuffer = [])
    | .buffer => m.cls = .evt
    | .dropDisabled => S.policy.classEnabled m.cls = false
    | .dropDisconnected => m.cls = .evt → S.policy.evtBufferMax = 0
    | .dropRateCapped => S.policy.hasRateCap m.cls = true := by
  obtain ⟨k, hk⟩ := Option.isSome_iff_exists.mp
    (Setup.classIndex_isSome_of_pumpClass (hcls i m (by simp [hpump])))
  have hcases := (s.policy.admitVerdict_cases hk s.siteUp now).2.2
  rw [hwf.policy.classEnabled, hwf.policy.hasRateCap, hwf.policy.evtBufferMax] at hcases
  generalize (s.policy.admitVerdict m.cls s.siteUp now).1 = verdict at hcases
  cases verdict with
  | forward => exact hcases
  | buffer => exact hcases.2.1
  | dropDisabled => exact hcases
  | dropDisconnected => exact hcases.2.2
  | dropRateCapped => exact hcases.2

/-- A step that leaves all messages where they are. -/
theorem quiet_move (a : UplinkAction Bytes) (hflow : s'.flow = s.flow) :
    Flow.Move S s.flow a s'.flow [] :=
  hflow.symm ▸ Flow.Move.quiet a s.siteUp

/-- A step of the watcher that neither holds a popped event nor pops one moves no message. -/
theorem flow_watchStep {phase : WatcherPhase Bytes} (event : List WatchEvent)
    (hheld : s.watcher.held = none)
    (hphase : ({ s.watcher with phase } : Watcher Bytes).held = none) :
    (s.watchStep phase event).flow = s.flow := by
  simp [flow, watchStep, hheld, hphase]

/-- Every step of the uplink is a move of its messages. -/
theorem Move.flow (hwf : s.Wf S) (hcls : ∀ i, ∀ m ∈ (s.pumps i).load, S.pumpClass i = some m.cls)
    (h : Move S s a s' bumps) : s'.Wf S ∧ Flow.Move S s.flow a s'.flow bumps := by
  have hmax := hwf.policy.evtBufferMax
  have hbuffered : ∀ buffer, UplinkPolicy.SameSetup S.policy (s.setBuffer buffer).policy :=
    fun buffer => hwf.policy.trans (s.policy.sameSetup_evtBuffer buffer)
  have hadmitted : ∀ {m : Forwarded Bytes} {now verdict policy},
      s.policy.admitVerdict m.cls s.siteUp now = (verdict, policy) →
        policy.evtBuffer = s.policy.evtBuffer ∧ UplinkPolicy.SameSetup S.policy policy := by
    intro m now verdict policy hadmits
    have hsetup := (s.policy.admitVerdict_keeps m.cls s.siteUp now).2
    rw [hadmits] at hsetup
    exact ⟨UplinkPolicy.evtBuffer_of_admitVerdict hadmits, hwf.policy.trans hsetup⟩
  cases h with
  | publish topic payload =>
    exact ⟨⟨hwf.policy, hwf.bus.publish topic payload⟩, quiet_move _ rfl⟩
  | link up => exact ⟨⟨hwf.policy, hwf.bus⟩, Flow.Move.quiet (f := s.flow) _ up⟩
  | refuse i cls c bus reason hpump hpumpClass hrecv =>
    obtain ⟨-, hreceived, -⟩ := Bus.recv_eq_some hrecv
    have hmove := Flow.Move.refuse (S := S) (f := s.flow) (.recv i) c reason
    exact ⟨⟨hwf.policy, hwf.bus.recv hrecv⟩, by simpa [Uplink.flow, hreceived] using hmove⟩
  | hand i cls c bus bytes m hpump hpumpClass hrecv hdecide hm =>
    subst hm
    obtain ⟨-, hreceived, rest, hqueue, -⟩ := Bus.recv_eq_some hrecv
    have hsub : c.subscription = i := (hwf.bus.faithful i c (by simp [Bus.log, hqueue])).1
    have hmove := Flow.Move.hand (S := S) (f := s.flow) (.recv i) c
      { cls, publish := c.publish, subscription := i, topic := c.topic, bytes } hpump
      ⟨rfl, hsub, rfl, hpumpClass, hdecide⟩
    exact ⟨⟨hwf.policy, hwf.bus.recv hrecv⟩, by simpa [Uplink.flow, setPump, hreceived] using hmove⟩
  | goLive i now m policy hpump hadmits =>
    obtain ⟨hbuffer, hpolicy⟩ := hadmitted hadmits
    have hcases := admit_cases hwf hcls hpump now
    rw [hadmits] at hcases
    have hmove := Flow.Move.goLive (S := S) (f := s.flow) i now m hpump hcases.1 hcases.2.1
      hcases.2.2
    exact ⟨⟨hpolicy, hwf.bus⟩, by simpa [Uplink.flow, setPump, hbuffer] using hmove⟩
  | capped i now m policy hpump hadmits =>
    obtain ⟨hbuffer, hpolicy⟩ := hadmitted hadmits
    have hcap := admit_cases hwf hcls hpump now
    rw [hadmits] at hcap
    have hmove := Flow.Move.lose (S := S) (f := s.flow) (.relayUp i now) i m (.droppedRate m.cls)
      (congrArg UplinkPhase.load hpump) (Or.inr (Or.inr rfl)) (fun hevt _ => Or.inr (hevt ▸ hcap))
    exact ⟨⟨hpolicy, hwf.bus⟩, by simpa [Uplink.flow, setPump, Uplink.discard, hbuffer] using hmove⟩
  | disabled i now m hpump hverdict =>
    have hdisabled := admit_cases hwf hcls hpump now
    rw [hverdict] at hdisabled
    exact ⟨⟨hwf.policy, hwf.bus⟩, .lose (f := s.flow) _ i m _ (congrArg UplinkPhase.load hpump)
      (Or.inl rfl) (fun hevt _ => Or.inl (hevt ▸ hdisabled))⟩
  | disconnected i now m hpump hverdict =>
    have hoff := admit_cases hwf hcls hpump now
    rw [hverdict] at hoff
    exact ⟨⟨hwf.policy, hwf.bus⟩, .lose (f := s.flow) _ i m _ (congrArg UplinkPhase.load hpump)
      (Or.inr (Or.inl rfl)) (fun hevt hpos => absurd (hoff hevt) (Nat.pos_iff_ne_zero.mp hpos))⟩
  | store a i m hpush hroom =>
    obtain ⟨hload, hevt, henabled⟩ := hpush.event hwf hcls
    exact ⟨⟨hbuffered _, hwf.bus⟩, .store (f := s.flow) a i m hload hevt henabled (hmax ▸ hroom)⟩
  | evict a i m oldest rest hpush hon hfull hbuffer =>
    obtain ⟨hload, hevt, henabled⟩ := hpush.event hwf hcls
    exact ⟨⟨hbuffered _, hwf.bus⟩,
      .evict (f := s.flow) a i m oldest rest hload hevt henabled (hmax ▸ hfull) hbuffer⟩
  | reject a i m hpush hoff =>
    obtain ⟨hload, -, -⟩ := hpush.event hwf hcls
    exact ⟨⟨hwf.policy, hwf.bus⟩, .lose (f := s.flow) a i m _ hload (Or.inr (Or.inl rfl))
      (fun _ hpos => absurd (hmax ▸ hoff) (Nat.pos_iff_ne_zero.mp hpos))⟩
  | deliver i m hpump => exact ⟨⟨hwf.policy, hwf.bus⟩, .deliver (f := s.flow) _ i m hpump⟩
  | lose i m hpump hevt =>
    exact ⟨⟨hwf.policy, hwf.bus⟩, .lose (f := s.flow) _ i m _ (congrArg UplinkPhase.load hpump)
      (Or.inr (Or.inl rfl)) (fun heq => absurd heq hevt)⟩
  | baseline hphase | rise hphase | steady hphase | down hphase =>
    have hheld : s.watcher.held = none := by simp [Watcher.held, hphase]
    exact ⟨⟨hwf.policy, hwf.bus⟩, quiet_move _ (by simp only [Uplink.flow, hheld]; rfl)⟩
  | skip cmd topic rest hphase | broadcast cmd topic rest bytes hphase
  | broadcasted outcome rest hphase | enter hphase | count hphase | test hphase =>
    have hheld : s.watcher.held = none := by simp [Watcher.held, hphase]
    exact ⟨⟨hwf.policy, hwf.bus⟩, quiet_move _ (flow_watchStep _ hheld rfl)⟩
  | complete hphase =>
    have hheld : s.watcher.held = none := by
      rcases hphase with ⟨hphase | hphase, -⟩ | ⟨hphase, -⟩ <;> simp [Watcher.held, hphase]
    exact ⟨⟨hwf.policy, hwf.bus⟩, quiet_move _ (by simp only [Uplink.flow, hheld]; rfl)⟩
  | pop m rest hphase hbuffer =>
    have hheld : s.watcher.held = none := by simp [Watcher.held, hphase]
    exact ⟨⟨hbuffered _, hwf.bus⟩, .pop (f := s.flow) _ m rest hheld hbuffer⟩
  | replayed m hphase =>
    have hheld : s.watcher.held = some m := by simp [Watcher.held, hphase]
    exact ⟨⟨hwf.policy, hwf.bus⟩, .replayed (f := s.flow) _ m hheld⟩
  | requeue m hphase hroom =>
    have hheld : s.watcher.held = some m := by simp [Watcher.held, hphase]
    exact ⟨⟨hbuffered _, hwf.bus⟩, .requeue (f := s.flow) _ m hheld (hmax ▸ hroom)⟩
  | refuseRequeue m hphase hfull =>
    have hheld : s.watcher.held = some m := by simp [Watcher.held, hphase]
    exact ⟨⟨hwf.policy, hwf.bus⟩, .refuseRequeue (f := s.flow) _ m hheld (hmax ▸ hfull)⟩

end Uplink

end UnsBridge
