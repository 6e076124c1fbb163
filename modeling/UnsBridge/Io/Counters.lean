import Mathlib.Algebra.BigOperators.Fin
import UnsBridge.Lib.Collections
import UnsBridge.Policy
import UnsBridge.Relay

/-!
# The relay counters

`RelayCounters` counts what happened to every message; the tasks bump one counter at a time.  The
counters are unbounded here.  A `Bump` is one increment as a task makes it; a task step returns the
bumps it makes, so that the books can be kept without looking at the counters themselves:
`settled_bumpAll` says how the bumps of a step change the sum of the counters that settle a message.
-/

namespace UnsBridge

/-- `ClassCounters`: one counter for each governed class. -/
abbrev ClassCounters : Type := Fin 7 → ℕ

/-- `ClassCounters::incr`; a class without a slot is not counted. -/
def ClassCounters.incr (c : ClassCounters) (cls : UnsClass) : ClassCounters :=
  match classIndex cls with
  | some i => Function.update c i (c i + 1)
  | none => c

/-- `ClassCounters::total`. -/
def ClassCounters.total (c : ClassCounters) : ℕ := ∑ i, c i

/-- An increment adds one to the total, for a governed class. -/
theorem ClassCounters.total_incr (c : ClassCounters) (cls : UnsClass) :
    (c.incr cls).total = c.total + if (classIndex cls).isSome then 1 else 0 := by
  unfold incr total
  cases classIndex cls with
  | none => rfl
  | some i =>
    have hsum := Collections.sum_update Finset.univ (fun _ n => n) c (Finset.mem_univ i) (c i + 1)
    simp only [Option.isSome_some, if_true]
    omega

/-- An increment of a class lowers no slot. -/
theorem ClassCounters.le_incr (c : ClassCounters) (cls : UnsClass) (slot : Fin 7) :
    c slot ≤ c.incr cls slot := by
  unfold incr
  cases classIndex cls with
  | none => exact le_rfl
  | some i =>
    by_cases hi : slot = i
    · subst hi
      simp
    · simp [hi]

/-- `RelayCounters`. -/
structure RelayCounters where
  uplinked : ClassCounters := fun _ => 0
  downlinked : ℕ := 0
  loopDropped : ℕ := 0
  routedDropped : ℕ := 0
  malformedDropped : ℕ := 0
  publishFailed : ℕ := 0
  replyRelayed : ℕ := 0
  replyExpired : ℕ := 0
  replyStray : ℕ := 0
  droppedDisabled : ClassCounters := fun _ => 0
  droppedRate : ClassCounters := fun _ => 0
  droppedDisconnected : ClassCounters := fun _ => 0
  evtBuffered : ℕ := 0
  evtBufferDropped : ℕ := 0
  evtReplayed : ℕ := 0

/-- `RelayCounters::count_drop`. -/
def RelayCounters.countDrop (c : RelayCounters) (reason : DropReason) : RelayCounters :=
  match reason with
  | .ownEcho | .maxHopsExceeded => { c with loopDropped := c.loopDropped + 1 }
  | .malformedEnvelope => { c with malformedDropped := c.malformedDropped + 1 }
  | .notUnsTopic | .classNotRelayed | .notOwnDevice =>
    { c with routedDropped := c.routedDropped + 1 }

/-- One increment of a counter. -/
inductive Bump where
  | uplinked (cls : UnsClass)
  | downlinked
  | drop (reason : DropReason)
  | publishFailed
  | replyRelayed
  | replyExpired
  | replyStray
  | droppedDisabled (cls : UnsClass)
  | droppedRate (cls : UnsClass)
  | droppedDisconnected (cls : UnsClass)
  | evtBuffered
  | evtBufferDropped
  | evtReplayed
  deriving DecidableEq, Repr

namespace RelayCounters

/-- The counters after one increment. -/
def bump (c : RelayCounters) : Bump → RelayCounters
  | .uplinked cls => { c with uplinked := c.uplinked.incr cls }
  | .downlinked => { c with downlinked := c.downlinked + 1 }
  | .drop reason => c.countDrop reason
  | .publishFailed => { c with publishFailed := c.publishFailed + 1 }
  | .replyRelayed => { c with replyRelayed := c.replyRelayed + 1 }
  | .replyExpired => { c with replyExpired := c.replyExpired + 1 }
  | .replyStray => { c with replyStray := c.replyStray + 1 }
  | .droppedDisabled cls => { c with droppedDisabled := c.droppedDisabled.incr cls }
  | .droppedRate cls => { c with droppedRate := c.droppedRate.incr cls }
  | .droppedDisconnected cls => { c with droppedDisconnected := c.droppedDisconnected.incr cls }
  | .evtBuffered => { c with evtBuffered := c.evtBuffered + 1 }
  | .evtBufferDropped => { c with evtBufferDropped := c.evtBufferDropped + 1 }
  | .evtReplayed => { c with evtReplayed := c.evtReplayed + 1 }

/-- The counters after some increments. -/
def bumpAll (c : RelayCounters) (bumps : List Bump) : RelayCounters := bumps.foldl bump c

/-- The sum of the counters that settle a received message. -/
def settled (c : RelayCounters) : ℕ :=
  c.uplinked.total + c.droppedDisabled.total + c.droppedRate.total + c.droppedDisconnected.total +
    c.downlinked + c.loopDropped + c.routedDropped + c.malformedDropped + c.publishFailed +
    c.replyRelayed + c.replyStray + c.evtReplayed + c.evtBufferDropped

end RelayCounters

/-- The number of messages that an increment settles. -/
def Bump.settles : Bump → ℕ
  | .uplinked cls | .droppedDisabled cls | .droppedRate cls | .droppedDisconnected cls =>
    if (classIndex cls).isSome then 1 else 0
  | .evtBuffered | .replyExpired => 0
  | _ => 1

/-- The number of events that an increment puts into the replay buffer, and the number that it takes
out for good. -/
def Bump.evtFlow : Bump → ℕ × ℕ
  | .evtBuffered => (1, 0)
  | .evtReplayed | .evtBufferDropped => (0, 1)
  | _ => (0, 0)

namespace RelayCounters

/-- One increment changes the sum by what it settles. -/
theorem settled_bump (c : RelayCounters) (b : Bump) :
    (c.bump b).settled = c.settled + b.settles := by
  cases b with
  | drop reason => cases reason <;> simp only [bump, countDrop, settled, Bump.settles] <;> omega
  | _ =>
    simp only [bump, settled, Bump.settles, ClassCounters.total_incr]
    omega

/-- The increments of a step change the sum by what they settle. -/
theorem settled_bumpAll (c : RelayCounters) (bumps : List Bump) :
    (c.bumpAll bumps).settled = c.settled + (bumps.map Bump.settles).sum := by
  unfold bumpAll
  induction bumps generalizing c with
  | nil => rfl
  | cons b bumps ih =>
    rw [List.foldl_cons, ih, settled_bump, List.map_cons, List.sum_cons]
    omega

/-- The increments of a step change the event counters by their event flow. -/
theorem evt_bumpAll (c : RelayCounters) (bumps : List Bump) :
    (c.bumpAll bumps).evtBuffered = c.evtBuffered + (bumps.map fun b => b.evtFlow.1).sum ∧
      (c.bumpAll bumps).evtReplayed + (c.bumpAll bumps).evtBufferDropped =
        c.evtReplayed + c.evtBufferDropped + (bumps.map fun b => b.evtFlow.2).sum := by
  unfold bumpAll
  induction bumps generalizing c with
  | nil => exact ⟨rfl, rfl⟩
  | cons b bumps ih =>
    obtain ⟨hin, hout⟩ := ih (c.bump b)
    rw [List.foldl_cons, hin, hout, List.map_cons, List.sum_cons, List.map_cons, List.sum_cons]
    cases b with
    | drop reason => cases reason <;> simp [bump, countDrop, Bump.evtFlow]
    | _ =>
      simp only [bump, Bump.evtFlow]
      omega

/-- The increments of a step change the expiry counter by the number of expiries among them. -/
theorem replyExpired_bumpAll (c : RelayCounters) (bumps : List Bump) :
    (c.bumpAll bumps).replyExpired = c.replyExpired + bumps.count .replyExpired := by
  unfold bumpAll
  induction bumps generalizing c with
  | nil => rfl
  | cons b bumps ih =>
    rw [List.foldl_cons, ih, List.count_cons]
    cases b with
    | drop reason => cases reason <;> simp [bump, countDrop]
    | _ => simp [bump] <;> omega

end RelayCounters

end UnsBridge
