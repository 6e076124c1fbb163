import UnsBridge.Shutdown

/-!
# A start that fails

`RelayIo::start` makes its subscriptions one after the other, first those on the device bus, then
those on the site broker, and spawns the pump of each as soon as it is made; the watcher and the
sweep come last.  A failed subscribe ends the start with an error.  The handles of the pumps that
have been spawned by then are dropped, which detaches the pumps: they go on, and so do their
subscriptions.

`Starting` is the relay with its start on its way, in which messages may arrive and be relayed
already.  `failed_start_leaves_nothing_iff` says that a failed start leaves nothing behind only if
the very first subscribe was the one to fail.
-/

namespace UnsBridge

open Transition

variable {Bytes ρ : Type}

/-- The relay while it starts: the number of the subscribe calls that have succeeded, and, when the
start has failed, whether the call that failed has taken effect. -/
structure Starting (Bytes : Type) where
  io : RelayIo Bytes
  established : ℕ
  failed : Option Bool

/-- A step of a relay that starts. -/
inductive StartingAction (Bytes : Type) where
  /-- The next subscribe call of `RelayIo::start` returns. -/
  | subscribed (outcome : SubOutcome)
  /-- A step of a task that has been spawned, or of the environment. -/
  | run (a : RelayIoAction Bytes)

namespace Starting

/-- The number of subscribe calls that `RelayIo::start` makes. -/
def calls (S : Setup Bytes ρ) : ℕ := S.deviceSubscriptions.length + S.siteSubscriptions.length

/-- Whether a task has been spawned. -/
def spawned (S : Setup Bytes ρ) (s : Starting Bytes) : RelayTask → Bool
  | .uplinkPump i => i < S.deviceSubscriptions.length && i < s.established
  | .downlinkPump i =>
    i < S.siteSubscriptions.length && S.deviceSubscriptions.length + i < s.established
  | .watcher | .sweeper => s.established = calls S
  | .replyPump k => k < s.io.down.nextReplyPump

/-- Whether a task has ended by itself: a downlink pump that has panicked, or a reply pump that is
done. -/
def hasEnded (s : Starting Bytes) : RelayTask → Bool
  | .downlinkPump i =>
    match s.io.down.pumps i with
    | .dead => true
    | _ => false
  | .replyPump k =>
    match s.io.down.replyPumps k with
    | .done => true
    | _ => false
  | .uplinkPump _ | .watcher | .sweeper => false

/-- A task is left running. -/
def Running (S : Setup Bytes ρ) (s : Starting Bytes) (task : RelayTask) : Prop :=
  s.spawned S task = true ∧ s.hasEnded task = false

/-- What is published reaches the subscriptions that have been made so far. -/
def runIo [Inhabited ρ] (S : Setup Bytes ρ) (s : Starting Bytes) :
    RelayIoAction Bytes → Option (RelayIo Bytes)
  | .up (.publish topic payload) =>
    let subs := S.deviceSubscriptions.take s.established
    some { s.io with up := { s.io.up with bus := s.io.up.bus.publish subs topic payload } }
  | .down (.publish topic payload) =>
    let subs := S.siteSubscriptions.take (s.established - S.deviceSubscriptions.length)
    some { s.io with down := { s.io.down with bus := s.io.down.bus.publish subs topic payload } }
  | a => s.io.step S a

/-- Whether a step may be taken: its task, if it has one, has been spawned. -/
def mayRun (S : Setup Bytes ρ) (s : Starting Bytes) (a : RelayIoAction Bytes) : Bool :=
  match a.task with
  | some task => s.spawned S task
  | none => true

/-- One step.  The start goes on while no subscribe has failed; the tasks go on in any case. -/
def step [Inhabited ρ] (S : Setup Bytes ρ) (s : Starting Bytes) :
    StartingAction Bytes → Option (Starting Bytes)
  | .subscribed outcome =>
    if s.failed.isNone && s.established < calls S then
      match outcome with
      | .ok => some { s with established := s.established + 1 }
      | .failed effect => some { s with failed := some effect }
    else none
  | .run a => if s.mayRun S a then (s.runIo S a).map fun io => { s with io } else none

/-- The relay with its start as a transition system. -/
def system [Inhabited ρ] (S : Setup Bytes ρ) : System (Starting Bytes) (StartingAction Bytes) where
  init s := ∃ siteUp, s = { io := .start S siteUp, established := 0, failed := none }
  step s a := s.step S a

/-- The same system, from a given state on. -/
def after [Inhabited ρ] (S : Setup Bytes ρ) (s : Starting Bytes) :
    System (Starting Bytes) (StartingAction Bytes) where
  init t := t = s
  step t a := t.step S a

/-- What the bridge has subscribed on the two brokers. -/
def subscribed (S : Setup Bytes ρ) (s : Starting Bytes) : BrokerSubscriptions where
  device :=
    (S.deviceSubscriptions.take (s.established + if s.failed = some true then 1 else 0)).map
      Subscription.filter ++ s.io.down.subscriptions.map Prod.snd
  site :=
    (S.siteSubscriptions.take ((s.established + if s.failed = some true then 1 else 0) -
      S.deviceSubscriptions.length)).map Subscription.filter

/-- A failed start leaves nothing behind: no task runs, nothing is subscribed, and whatever happens
from now on, nothing more is published on the site or on the device bus.  (The log holds every
command and every reply that is published.) -/
structure LeavesNothing [Inhabited ρ] (S : Setup Bytes ρ) (s : Starting Bytes) : Prop where
  stopped : ∀ task, ¬ s.Running S task
  device : (s.subscribed S).device = []
  site : (s.subscribed S).site = []
  silent : ∀ t, (after S s).Reachable System.anyStep t →
    t.io.up.delivered = s.io.up.delivered ∧ t.io.down.log = s.io.down.log

/-- Nothing has been subscribed or spawned. -/
structure Bare (s : Starting Bytes) : Prop where
  established : s.established = 0
  subscriptions : s.io.down.subscriptions = []
  nextReplyPump : s.io.down.nextReplyPump = 0

variable {S : Setup Bytes ρ} {s s' : Starting Bytes}

/-- There are subscriptions on the device bus. -/
theorem deviceSubscriptions_pos (S : Setup Bytes ρ) : 0 < S.deviceSubscriptions.length := by
  obtain ⟨device, maxHops, appEnabled, hnew⟩ := S.engine_new
  have hmem := (RelayEngine.mem_uplinkFilters hnew).mpr
    ⟨List.mem_append_left _ List.mem_cons_self, Or.inl rfl⟩
  have hpos := List.length_pos_of_mem hmem
  rw [Setup.deviceSubscriptions, List.length_map]
  exact hpos

/-- Without a subscription no task has been spawned. -/
theorem Bare.spawned (h : s.Bare) (S : Setup Bytes ρ) (task : RelayTask) :
    s.spawned S task = false := by
  have hpos := deviceSubscriptions_pos S
  have hcalls : ¬ 0 = calls S := by
    unfold calls
    omega
  cases task <;> simp [Starting.spawned, h.established, h.nextReplyPump, hcalls]

section Step

variable [Inhabited ρ]

/-- A step of a task or of the environment leaves the start where it is. -/
theorem run_of_step {a : RelayIoAction Bytes} (h : s.step S (.run a) = some s') :
    s.mayRun S a = true ∧ ∃ io, s.runIo S a = some io ∧ s' = { s with io } := by
  simp only [step] at h
  split at h
  · rename_i hmay
    obtain ⟨io, hio, rfl⟩ := Option.map_eq_some_iff.mp h
    exact ⟨hmay, io, hio, rfl⟩
  · cases h

/-- Without a subscription the steps are those of the environment, and nothing is published. -/
theorem Bare.run (h : s.Bare) {a : RelayIoAction Bytes} (hstep : s.step S (.run a) = some s') :
    s'.Bare ∧ s'.failed = s.failed ∧ s'.io.up.delivered = s.io.up.delivered ∧
      s'.io.down.log = s.io.down.log := by
  obtain ⟨hmay, io, hio, rfl⟩ := run_of_step hstep
  have htask : a.task = none := by
    cases htask : a.task with
    | none => rfl
    | some task => simp [mayRun, htask, h.spawned] at hmay
  cases a with
  | up b =>
    cases b with
    | publish topic payload =>
      obtain rfl := Option.some.inj hio
      exact ⟨⟨h.established, h.subscriptions, h.nextReplyPump⟩, rfl, rfl, rfl⟩
    | link up =>
      obtain ⟨bumps, hup, hdown, -⟩ := RelayIo.step_up hio
      refine ⟨⟨h.established, ?_, ?_⟩, rfl, ?_, congrArg Downlink.log hdown⟩
      · exact (congrArg Downlink.subscriptions hdown).trans h.subscriptions
      · exact (congrArg Downlink.nextReplyPump hdown).trans h.nextReplyPump
      · simp only [Uplink.step] at hup
        split at hup
        · cases hup
        · exact (congrArg (fun r => r.1.delivered) (Option.some.inj hup)).symm
    | _ => cases htask
  | down b =>
    cases b with
    | publish topic payload =>
      obtain rfl := Option.some.inj hio
      exact ⟨⟨h.established, h.subscriptions, h.nextReplyPump⟩, rfl, rfl, rfl⟩
    | reply topic payload =>
      obtain rfl := Option.some.inj hio
      exact ⟨⟨h.established, h.subscriptions, h.nextReplyPump⟩, rfl, rfl, rfl⟩
    | _ => cases htask

/-- Until the first subscribe succeeds, nothing is subscribed or spawned. -/
theorem bare_of_established (h : (system S).Reachable System.anyStep s)
    (hnone : s.established = 0) : s.Bare := by
  revert hnone
  apply h.invariant (I := fun s => s.established = 0 → s.Bare)
  · rintro s ⟨siteUp, rfl⟩ -
    exact ⟨rfl, rfl, rfl⟩
  · intro s a s' _ ih _ hstep hnone
    cases a with
    | subscribed outcome =>
      simp only [system, Starting.step] at hstep
      split at hstep
      · cases outcome with
        | ok =>
          obtain rfl := Option.some.inj hstep
          cases hnone
        | failed effect =>
          obtain rfl := Option.some.inj hstep
          have hbare := ih hnone
          exact ⟨hnone, hbare.subscriptions, hbare.nextReplyPump⟩
      · cases hstep
    | run a =>
      obtain ⟨-, io, -, rfl⟩ := run_of_step hstep
      exact ((ih hnone).run hstep).1

/-- After a start that has failed without a subscription nothing is ever published. -/
theorem Bare.silent (h : s.Bare) {effect : Bool} (hfailed : s.failed = some effect)
    {t : Starting Bytes} (ht : (after S s).Reachable System.anyStep t) :
    t.Bare ∧ t.failed = some effect ∧
      t.io.up.delivered = s.io.up.delivered ∧ t.io.down.log = s.io.down.log := by
  refine ht.invariant (I := fun t => t.Bare ∧ t.failed = some effect ∧
    t.io.up.delivered = s.io.up.delivered ∧ t.io.down.log = s.io.down.log) ?_ ?_
  · rintro t rfl
    exact ⟨h, hfailed, rfl, rfl⟩
  · rintro t a t' - ⟨hbare, hfailed, hup, hdown⟩ - hstep
    cases a with
    | subscribed outcome => simp [after, Starting.step, hfailed] at hstep
    | run a =>
      obtain ⟨hbare', hfailed', hup', hdown'⟩ := hbare.run hstep
      exact ⟨hbare', hfailed'.trans hfailed, hup'.trans hup, hdown'.trans hdown⟩

end Step

end Starting

/-- A start that fails leaves nothing half-running only if nothing had been subscribed.  Take any
engine and any run of its start, in which the subscribe calls return as they will and messages
arrive and are relayed at any time.  When the start has failed, then no task is left running,
nothing is left subscribed on either connection and nothing more is ever published, exactly if the
very first subscribe is the one that failed, and it has not taken effect. -/
theorem failed_start_leaves_nothing_iff [Inhabited ρ] (S : Setup Bytes ρ) {s : Starting Bytes}
    (h : (Starting.system S).Reachable System.anyStep s) {effect : Bool}
    (hfailed : s.failed = some effect) :
    s.LeavesNothing S ↔ s.established = 0 ∧ effect = false := by
  have hpos := Starting.deviceSubscriptions_pos S
  constructor
  · intro hnothing
    have hnone : s.established = 0 := by
      by_contra hne
      -- the pump of the first subscription never ends
      refine hnothing.stopped (.uplinkPump 0) ⟨?_, rfl⟩
      simp [Starting.spawned, hpos, Nat.pos_of_ne_zero hne]
    refine ⟨hnone, ?_⟩
    by_contra heffect
    have htrue : s.failed = some true := by rw [hfailed, Bool.eq_true_of_not_eq_false heffect]
    have hempty := List.append_eq_nil_iff.mp hnothing.device
    rw [hnone, if_pos htrue, List.map_eq_nil_iff, List.take_eq_nil_iff] at hempty
    rcases hempty.1 with hzero | hnil
    · cases hzero
    · simp [hnil] at hpos
  · rintro ⟨hnone, rfl⟩
    have hbare := Starting.bare_of_established h hnone
    refine ⟨fun task hrunning => ?_, ?_, ?_, fun t ht => (hbare.silent hfailed ht).2.2⟩
    · exact absurd hrunning.1 (by simp [hbare.spawned])
    · simp [Starting.subscribed, hnone, hfailed, hbare.subscriptions]
    · simp [Starting.subscribed, hnone, hfailed]

/-- The relay of device `gw-01` after a start whose second subscribe has failed. -/
def Starting.halfway : Starting (Message Unit) where
  io := .start .gw01 true
  established := 1
  failed := some false

/-- A message arrives on the subscription that was made, and is relayed. -/
def Starting.relayRun : List (StartingAction (Message Unit)) :=
  [.run (.up (.publish "ecv1/gw-01/adapter/main/state" (.sample none))), .run (.up (.recv 0)),
    .run (.up (.relayUp 0 0)), .run (.up (.published 0 .ok))]

/-- A start fails at the second subscribe; then a message arrives on the first subscription, and is
relayed. -/
theorem failed_start_keeps_relaying : ∃ s t : Starting (Message Unit),
    (Starting.system Setup.gw01).Reachable System.anyStep s ∧ s.failed = some false ∧
      s.io.up.delivered.length = 0 ∧
      (Starting.after Setup.gw01 s).Reachable System.anyStep t ∧ t.io.up.delivered.length = 1 ∧
      ¬ s.LeavesNothing Setup.gw01 := by
  obtain ⟨s, hs, hobs⟩ := System.exists_reachable_of_exec (M := Starting.system Setup.gw01)
    (fun _ _ => true) (fun _ _ _ => trivial) (.init ⟨true, rfl⟩)
    [.subscribed .ok, .subscribed (.failed false)] id (x := Starting.halfway) rfl
  obtain ⟨t, ht, hone⟩ := System.exists_reachable_of_exec
    (M := Starting.after Setup.gw01 Starting.halfway) (P := System.anyStep) (fun _ _ => true)
    (fun _ _ _ => trivial) (.init rfl) Starting.relayRun (fun t => t.io.up.delivered.length)
    (x := 1) (by decide +kernel)
  refine ⟨Starting.halfway, t, hobs ▸ hs, rfl, rfl, ht, hone, fun h => ?_⟩
  have hsame := (h.silent t ht).1
  rw [hsame] at hone
  cases hone

/-- A start whose first subscribe fails without an effect leaves nothing. -/
theorem failed_start_leaves_nothing_first : ∃ s : Starting (Message Unit),
    s.failed = some false ∧ s.LeavesNothing Setup.gw01 := by
  obtain ⟨s, hs, hobs⟩ := System.exists_reachable_of_exec (M := Starting.system Setup.gw01)
    (P := System.anyStep) (fun _ _ => true) (fun _ _ _ => trivial) (.init ⟨true, rfl⟩)
    [.subscribed (.failed false)] (fun s => (s.established, s.failed)) (x := (0, some false))
    (by decide +kernel)
  obtain ⟨hnone, hfailed⟩ := Prod.mk.inj hobs
  exact ⟨s, hfailed, (failed_start_leaves_nothing_iff Setup.gw01 hs hfailed).mpr ⟨hnone, rfl⟩⟩

end UnsBridge
