import UnsBridge.Lib.Transition
import UnsBridge.Observability

/-!
# The metric task

The task of `RelayIo::start` that emits the relay's own metrics.  It defines them, lets the first
tick of its interval pass, and from then on takes a snapshot at every tick and emits the deltas
since the snapshot before, one metric after the other.  The other tasks go on meanwhile: a snapshot
loads one counter after the other, and the counters move between two loads as well as during the
emissions.  `emit_metric` belongs to the library; it succeeds or fails as it likes.

`Metering` is the task beside counters that anyone may increment at any moment.  The state keeps a
history of the ticks; the task reads none of it.
-/

namespace UnsBridge

open Transition

namespace RelayCounters

/-- A family of counters. -/
def family (c : RelayCounters) : ClassFamily → ClassCounters
  | .uplinked => c.uplinked
  | .droppedDisabled => c.droppedDisabled
  | .droppedRate => c.droppedRate
  | .droppedDisconnected => c.droppedDisconnected

/-- A scalar counter. -/
def scalar (c : RelayCounters) : ScalarCounter → ℕ
  | .downlinked => c.downlinked
  | .loopDropped => c.loopDropped
  | .routedDropped => c.routedDropped
  | .malformedDropped => c.malformedDropped
  | .publishFailed => c.publishFailed
  | .replyRelayed => c.replyRelayed
  | .replyExpired => c.replyExpired
  | .replyStray => c.replyStray
  | .evtBuffered => c.evtBuffered
  | .evtBufferDropped => c.evtBufferDropped
  | .evtReplayed => c.evtReplayed

/-- The load of a counter. -/
def load (c : RelayCounters) : Counter → ℕ
  | .perClass family slot => c.family family slot
  | .scalar counter => c.scalar counter

/-- No increment lowers a counter. -/
theorem load_le_bump (c : RelayCounters) (b : Bump) (k : Counter) :
    c.load k ≤ (c.bump b).load k := by
  cases k with
  | perClass f slot =>
    cases b with
    | drop reason => cases reason <;> cases f <;> exact le_rfl
    | _ => cases f <;> first | exact le_rfl | exact ClassCounters.le_incr _ _ slot
  | scalar k =>
    cases b with
    | drop reason => cases reason <;> cases k <;> simp [load, scalar, bump, countDrop]
    | _ => cases k <;> simp [load, scalar, bump]

/-- Counters only grow. -/
theorem load_le_bumpAll (c : RelayCounters) (bumps : List Bump) (k : Counter) :
    c.load k ≤ (c.bumpAll bumps).load k := by
  unfold bumpAll
  induction bumps generalizing c with
  | nil => exact le_rfl
  | cons b bumps ih => exact (c.load_le_bump b k).trans (ih (c.bump b))

end RelayCounters

/-- The order in which `take_snapshot` loads the counters. -/
def loadOrder : List Counter :=
  ClassFamily.all.flatMap (fun family => (List.finRange 7).map (.perClass family)) ++
    ScalarCounter.all.map .scalar

/-- Every counter is loaded. -/
theorem mem_loadOrder (c : Counter) : c ∈ loadOrder := by
  cases c with
  | perClass family slot =>
    have hfamily : family ∈ ClassFamily.all := by cases family <;> decide
    exact List.mem_append_left _ (List.mem_flatMap.mpr
      ⟨family, hfamily, List.mem_map_of_mem (List.mem_finRange slot)⟩)
  | scalar counter =>
    have hcounter : counter ∈ ScalarCounter.all := by cases counter <;> decide
    exact List.mem_append_right _ (List.mem_map_of_mem hcounter)

/-- `take_snapshot`, given what the load of each counter has returned. -/
def takeSnapshot (load : Counter → ℕ) (pendingReplies : ℕ) (siteConnected : Bool) :
    RelaySnapshot where
  uplinked slot := load (.perClass .uplinked slot)
  droppedDisabled slot := load (.perClass .droppedDisabled slot)
  droppedRate slot := load (.perClass .droppedRate slot)
  droppedDisconnected slot := load (.perClass .droppedDisconnected slot)
  downlinked := load (.scalar .downlinked)
  loopDropped := load (.scalar .loopDropped)
  routedDropped := load (.scalar .routedDropped)
  malformedDropped := load (.scalar .malformedDropped)
  publishFailed := load (.scalar .publishFailed)
  replyRelayed := load (.scalar .replyRelayed)
  replyExpired := load (.scalar .replyExpired)
  replyStray := load (.scalar .replyStray)
  evtBuffered := load (.scalar .evtBuffered)
  evtBufferDropped := load (.scalar .evtBufferDropped)
  evtReplayed := load (.scalar .evtReplayed)
  pendingReplies := pendingReplies
  siteConnected := siteConnected

/-- A snapshot holds what the loads have returned. -/
@[simp] theorem read_takeSnapshot (load : Counter → ℕ) (pendingReplies : ℕ) (siteConnected : Bool)
    (c : Counter) : (takeSnapshot load pendingReplies siteConnected).read c = load c := by
  cases c with
  | perClass family slot => cases family <;> rfl
  | scalar counter => cases counter <;> rfl

/-- An `emit_metric` that has returned. -/
structure Emission where
  group : MetricGroup
  ok : Bool

/-- A tick: the two snapshots that it compares, and its emissions so far. -/
structure Tick where
  prev : RelaySnapshot
  curr : RelaySnapshot
  emissions : List Emission

/-- Where the metric task stands. -/
inductive MetricPhase where
  /-- About to define the metrics. -/
  | starting
  /-- Awaiting the immediate tick, which emits nothing. -/
  | immediate
  /-- Awaiting the next tick. -/
  | waiting
  /-- The tick has come; the size of the correlation map is read next. -/
  | ticked
  /-- The site connection is read next. -/
  | sized (pendingReplies : ℕ)
  /-- In `take_snapshot`, with what has been loaded and the counters to load. -/
  | loading (pendingReplies : ℕ) (siteConnected : Bool) (loaded : Counter → ℕ)
      (rest : List Counter)
  /-- The emission of the first of the remaining groups is in flight. -/
  | emitting (tick : Tick) (rest : List MetricGroup)

/-- The tick whose emissions are on their way. -/
def MetricPhase.current : MetricPhase → Option Tick
  | .emitting tick _ => some tick
  | _ => none

/-- The metric task: the metrics it has defined, the baseline `prev`, and the ticks it is done
with. -/
structure MetricTask where
  defined : List MetricDef := []
  prev : RelaySnapshot := {}
  phase : MetricPhase := .starting
  finished : List Tick := []

/-- A step of the metric task. -/
inductive MetricAction where
  | define
  | tick
  | pendingReplies (n : ℕ)
  | siteConnected (up : Bool)
  | load
  | group
  | emitted (ok : Bool)
  | advance

namespace MetricTask

/-- The ticks so far; the last one may be on its way. -/
def ticks (t : MetricTask) : List Tick := t.finished ++ t.phase.current.toList

/-- One step of the task, with the counters as they are now. -/
def step (counters : RelayCounters) (t : MetricTask) : MetricAction → Option MetricTask
  | .define =>
    match t.phase with
    | .starting => some { t with defined := metricDefinitions, phase := .immediate }
    | _ => none
  | .tick =>
    match t.phase with
    | .immediate => some { t with phase := .waiting }
    | .waiting => some { t with phase := .ticked }
    | _ => none
  | .pendingReplies n =>
    match t.phase with
    | .ticked => some { t with phase := .sized n }
    | _ => none
  | .siteConnected up =>
    match t.phase with
    | .sized n => some { t with phase := .loading n up (fun _ => 0) loadOrder }
    | _ => none
  | .load =>
    match t.phase with
    | .loading pendingReplies siteConnected loaded (c :: rest) =>
      let loaded := Function.update loaded c (counters.load c)
      some { t with phase := .loading pendingReplies siteConnected loaded rest }
    | _ => none
  | .group =>
    match t.phase with
    | .loading pendingReplies siteConnected loaded [] =>
      let curr := takeSnapshot loaded pendingReplies siteConnected
      let tick := { prev := t.prev, curr, emissions := [] }
      some { t with phase := .emitting tick (relayMetricGroups t.prev curr) }
    | _ => none
  | .emitted ok =>
    match t.phase with
    | .emitting tick (g :: rest) =>
      -- a failed emission is only logged
      let tick := { tick with emissions := tick.emissions ++ [{ group := g, ok }] }
      some { t with phase := .emitting tick rest }
    | _ => none
  | .advance =>
    match t.phase with
    | .emitting tick [] =>
      some { t with prev := tick.curr, phase := .waiting, finished := t.finished ++ [tick] }
    | _ => none

variable {counters : RelayCounters} {t t' : MetricTask} {a : MetricAction}

/-- What a step of the task does. -/
inductive Move (counters : RelayCounters) (t : MetricTask) : MetricTask → Prop
  | define (hphase : t.phase = .starting) :
      Move counters t { t with defined := metricDefinitions, phase := .immediate }
  | immediate (hphase : t.phase = .immediate) : Move counters t { t with phase := .waiting }
  | tick (hphase : t.phase = .waiting) : Move counters t { t with phase := .ticked }
  | pendingReplies (n : ℕ) (hphase : t.phase = .ticked) :
      Move counters t { t with phase := .sized n }
  | siteConnected {n : ℕ} (up : Bool) (hphase : t.phase = .sized n) :
      Move counters t { t with phase := .loading n up (fun _ => 0) loadOrder }
  | load {pendingReplies : ℕ} {siteConnected : Bool} {loaded : Counter → ℕ} {c : Counter}
      {rest : List Counter}
      (hphase : t.phase = .loading pendingReplies siteConnected loaded (c :: rest)) :
      Move counters t
        { t with
          phase := .loading pendingReplies siteConnected
            (Function.update loaded c (counters.load c)) rest }
  | group {pendingReplies : ℕ} {siteConnected : Bool} {loaded : Counter → ℕ}
      (hphase : t.phase = .loading pendingReplies siteConnected loaded [])
      {curr : RelaySnapshot} (hcurr : curr = takeSnapshot loaded pendingReplies siteConnected) :
      Move counters t
        { t with phase := .emitting ⟨t.prev, curr, []⟩ (relayMetricGroups t.prev curr) }
  | emitted (ok : Bool) {tick : Tick} {g : MetricGroup} {rest : List MetricGroup}
      (hphase : t.phase = .emitting tick (g :: rest)) :
      Move counters t
        { t with phase := .emitting { tick with emissions := tick.emissions ++ [⟨g, ok⟩] } rest }
  | advance {tick : Tick} (hphase : t.phase = .emitting tick []) :
      Move counters t
        { t with prev := tick.curr, phase := .waiting, finished := t.finished ++ [tick] }

/-- Every step of the task is one of these. -/
theorem step_move (h : t.step counters a = some t') : Move counters t t' := by
  cases a <;> simp only [step] at h <;> split at h <;> cases h
  · exact .define ‹_›
  · exact .immediate ‹_›
  · exact .tick ‹_›
  · exact .pendingReplies _ ‹_›
  · exact .siteConnected _ ‹_›
  · exact .load ‹_›
  · exact .group ‹_› rfl
  · exact .emitted _ ‹_›
  · exact .advance ‹_›

end MetricTask

/-- The metric task and the counters it reads. -/
structure Metering where
  counters : RelayCounters := {}
  task : MetricTask := {}

/-- A step: other tasks increment counters, or the metric task goes on. -/
inductive MeteringAction where
  | count (bumps : List Bump)
  | task (a : MetricAction)

namespace Metering

/-- One step. -/
def step (s : Metering) : MeteringAction → Option Metering
  | .count bumps => some { s with counters := s.counters.bumpAll bumps }
  | .task a => (s.task.step s.counters a).map fun task => { s with task }

/-- The metric task and the counters as a transition system. -/
def system : System Metering MeteringAction where
  init s := s = {}
  step := step

end Metering

end UnsBridge
