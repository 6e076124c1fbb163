import Mathlib.Data.Finmap
import Mathlib.Data.List.FinRange
import Mathlib.Tactic.FinCases
import UnsBridge.Envelope
import UnsBridge.Io.Counters

/-!
# The relay's own metrics

`relay_metric_groups` maps two snapshots of the counters to the values that one tick emits: each
counter as the delta since the snapshot before, each gauge as it is.  The names and the measures
stand in two tables of accessors, which `metric_definitions` shares.

A `Counter` is one counter of the relay under its documented name: a metric and a measure.  The two
tables give each of them its own delta, `exists_group`, and a tick offers exactly what is defined,
`map_measures_relayMetricGroups`.  Values are exact natural numbers; the source converts them to
`f64`.
-/

namespace UnsBridge

/-- `CLASS_MEASURES`: the per-class measures, in the order of `POLICY_CLASSES`. -/
def CLASS_MEASURES : List String := ["state", "cfg", "evt", "metric", "data", "log", "app"]

/-- `COUNT_MEASURE`. -/
def COUNT_MEASURE : String := "count"

/-- `CONNECTED_MEASURE`. -/
def CONNECTED_MEASURE : String := "connected"

/-- `PENDING_REPLIES_METRIC`. -/
def PENDING_REPLIES_METRIC : String := "relay_pending_replies"

/-- `SITE_CONNECTED_METRIC`. -/
def SITE_CONNECTED_METRIC : String := "site_connected"

/-- `RelaySnapshot`: a copy of every counter, and the two gauges. -/
structure RelaySnapshot where
  uplinked : ClassCounters := fun _ => 0
  droppedDisabled : ClassCounters := fun _ => 0
  droppedRate : ClassCounters := fun _ => 0
  droppedDisconnected : ClassCounters := fun _ => 0
  downlinked : ℕ := 0
  loopDropped : ℕ := 0
  routedDropped : ℕ := 0
  malformedDropped : ℕ := 0
  publishFailed : ℕ := 0
  replyRelayed : ℕ := 0
  replyExpired : ℕ := 0
  replyStray : ℕ := 0
  evtBuffered : ℕ := 0
  evtBufferDropped : ℕ := 0
  evtReplayed : ℕ := 0
  pendingReplies : ℕ := 0
  siteConnected : Bool := false

/-- `CLASS_FAMILIES`: the per-class families with their accessors. -/
def CLASS_FAMILIES : List (String × (RelaySnapshot → ClassCounters)) :=
  [("relay_uplinked", fun s => s.uplinked),
    ("relay_dropped_disabled", fun s => s.droppedDisabled),
    ("relay_dropped_rate", fun s => s.droppedRate),
    ("relay_dropped_disconnected", fun s => s.droppedDisconnected)]

/-- `SCALAR_COUNTERS`: the scalar counters with their accessors. -/
def SCALAR_COUNTERS : List (String × (RelaySnapshot → ℕ)) :=
  [("relay_downlinked", fun s => s.downlinked),
    ("relay_loop_dropped", fun s => s.loopDropped),
    ("relay_routed_dropped", fun s => s.routedDropped),
    ("relay_malformed_dropped", fun s => s.malformedDropped),
    ("relay_publish_failed", fun s => s.publishFailed),
    ("relay_reply_relayed", fun s => s.replyRelayed),
    ("relay_reply_expired", fun s => s.replyExpired),
    ("relay_reply_stray", fun s => s.replyStray),
    ("relay_evt_buffered", fun s => s.evtBuffered),
    ("relay_evt_buffer_dropped", fun s => s.evtBufferDropped),
    ("relay_evt_replayed", fun s => s.evtReplayed)]

/-- `MetricDef`: the name of a metric, its measures and its unit. -/
structure MetricDef where
  name : String
  measures : List String
  unit : String
  deriving DecidableEq, Repr

/-- `MetricGroup`: the arguments of one `emit_metric`. -/
structure MetricGroup where
  name : String
  values : StrMap ℕ

/-- `metric_definitions`. -/
def metricDefinitions : List MetricDef :=
  CLASS_FAMILIES.map (fun (name, _) => { name, measures := CLASS_MEASURES, unit := "Count" }) ++
    SCALAR_COUNTERS.map (fun (name, _) => { name, measures := [COUNT_MEASURE], unit := "Count" }) ++
    [{ name := PENDING_REPLIES_METRIC, measures := [COUNT_MEASURE], unit := "Count" },
      { name := SITE_CONNECTED_METRIC, measures := [CONNECTED_MEASURE], unit := "None" }]

/-- The values collected into a hash map; a later one replaces an earlier one. -/
def collectValues (pairs : List (String × ℕ)) : StrMap ℕ :=
  pairs.foldl (fun values pair => values.insert pair.1 pair.2) ∅

/-- The group of a per-class family in `relay_metric_groups`. -/
def familyGroup (prev curr : RelaySnapshot) :
    String × (RelaySnapshot → ClassCounters) → MetricGroup
  | (name, field) =>
    let values := (CLASS_MEASURES.zip ((List.ofFn (field curr)).zip (List.ofFn (field prev)))).map
      fun (measure, c, p) => (measure, c - p)
    { name, values := collectValues values }

/-- The group of a scalar counter in `relay_metric_groups`. -/
def scalarGroup (prev curr : RelaySnapshot) : String × (RelaySnapshot → ℕ) → MetricGroup
  | (name, field) => { name, values := collectValues [(COUNT_MEASURE, field curr - field prev)] }

/-- `relay_metric_groups`: counters become deltas, gauges the current value. -/
def relayMetricGroups (prev curr : RelaySnapshot) : List MetricGroup :=
  CLASS_FAMILIES.map (familyGroup prev curr) ++ SCALAR_COUNTERS.map (scalarGroup prev curr) ++
    [{ name := PENDING_REPLIES_METRIC,
       values := collectValues [(COUNT_MEASURE, curr.pendingReplies)] },
      { name := SITE_CONNECTED_METRIC,
        values := collectValues [(CONNECTED_MEASURE, if curr.siteConnected then 1 else 0)] }]

/-! ### What a tick offers -/

/-- The metric of a group with its measures. -/
def MetricGroup.measures (g : MetricGroup) : String × Finset String := (g.name, g.values.keys)

/-- The metric of a definition with its measures. -/
def MetricDef.offer (d : MetricDef) : String × Finset String := (d.name, d.measures.toFinset)

/-- One more pair is inserted last. -/
theorem collectValues_concat (pairs : List (String × ℕ)) (pair : String × ℕ) :
    collectValues (pairs ++ [pair]) = (collectValues pairs).insert pair.1 pair.2 := by
  simp [collectValues]

/-- The map has the keys of the pairs. -/
theorem keys_collectValues (pairs : List (String × ℕ)) :
    (collectValues pairs).keys = (pairs.map Prod.fst).toFinset := by
  induction pairs using List.reverseRecOn with
  | nil => rfl
  | append_singleton pairs pair ih =>
    ext key
    rw [Finmap.mem_keys, collectValues_concat, Finmap.mem_insert, ← Finmap.mem_keys, ih]
    simp

/-- Where no key comes twice, the map has the value of each pair. -/
theorem lookup_collectValues {pairs : List (String × ℕ)} (hnodup : (pairs.map Prod.fst).Nodup)
    {key : String} {value : ℕ} (h : (key, value) ∈ pairs) :
    (collectValues pairs).lookup key = some value := by
  induction pairs using List.reverseRecOn with
  | nil => cases h
  | append_singleton pairs pair ih =>
    rw [collectValues_concat]
    rw [List.map_append, List.nodup_append] at hnodup
    obtain ⟨hpairs, -, hdisjoint⟩ := hnodup
    rcases List.mem_append.mp h with h | h
    · have hne : key ≠ pair.1 := hdisjoint _ (List.mem_map_of_mem h) _ (by simp)
      rw [Finmap.lookup_insert_of_ne _ hne]
      exact ih hpairs h
    · obtain rfl := List.mem_singleton.mp h
      exact Finmap.lookup_insert _

/-- The names in a zip of the class measures are the class measures. -/
theorem map_fst_zip_classMeasures (curr prev : ClassCounters) :
    (CLASS_MEASURES.zip ((List.ofFn curr).zip (List.ofFn prev))).map Prod.fst = CLASS_MEASURES :=
  List.map_fst_zip (by simp [CLASS_MEASURES])

/-- A family offers the class measures. -/
theorem measures_familyGroup (prev curr : RelaySnapshot)
    (p : String × (RelaySnapshot → ClassCounters)) :
    (familyGroup prev curr p).measures = (p.1, CLASS_MEASURES.toFinset) := by
  simp only [MetricGroup.measures, familyGroup, keys_collectValues, List.map_map]
  rw [← map_fst_zip_classMeasures (p.2 curr) (p.2 prev)]
  rfl

/-- A tick offers exactly the metrics that are defined, each with its measures, in their order. -/
theorem map_measures_relayMetricGroups (prev curr : RelaySnapshot) :
    (relayMetricGroups prev curr).map MetricGroup.measures =
      metricDefinitions.map MetricDef.offer := by
  have hfamilies : (CLASS_FAMILIES.map (familyGroup prev curr)).map MetricGroup.measures =
      CLASS_FAMILIES.map fun p => (p.1, CLASS_MEASURES.toFinset) := by
    rw [List.map_map]
    exact List.map_congr_left fun p _ => measures_familyGroup prev curr p
  simp only [relayMetricGroups, List.map_append, hfamilies]
  rfl

/-! ### The counters behind the measures -/

/-- The counters that there is one of for each class. -/
inductive ClassFamily where
  | uplinked
  | droppedDisabled
  | droppedRate
  | droppedDisconnected
  deriving DecidableEq, Repr

/-- The counters that there is one of. -/
inductive ScalarCounter where
  | downlinked
  | loopDropped
  | routedDropped
  | malformedDropped
  | publishFailed
  | replyRelayed
  | replyExpired
  | replyStray
  | evtBuffered
  | evtBufferDropped
  | evtReplayed
  deriving DecidableEq, Repr

/-- A counter: one slot of a family, or a scalar. -/
inductive Counter where
  | perClass (family : ClassFamily) (slot : Fin 7)
  | scalar (counter : ScalarCounter)
  deriving DecidableEq, Repr

/-- The families in the order of the snapshot. -/
def ClassFamily.all : List ClassFamily :=
  [uplinked, droppedDisabled, droppedRate, droppedDisconnected]

/-- The scalar counters in the order of the snapshot. -/
def ScalarCounter.all : List ScalarCounter :=
  [downlinked, loopDropped, routedDropped, malformedDropped, publishFailed, replyRelayed,
    replyExpired, replyStray, evtBuffered, evtBufferDropped, evtReplayed]

/-- The metric that documents a family. -/
def ClassFamily.metric : ClassFamily → String
  | uplinked => "relay_uplinked"
  | droppedDisabled => "relay_dropped_disabled"
  | droppedRate => "relay_dropped_rate"
  | droppedDisconnected => "relay_dropped_disconnected"

/-- The metric that documents a scalar counter. -/
def ScalarCounter.metric : ScalarCounter → String
  | downlinked => "relay_downlinked"
  | loopDropped => "relay_loop_dropped"
  | routedDropped => "relay_routed_dropped"
  | malformedDropped => "relay_malformed_dropped"
  | publishFailed => "relay_publish_failed"
  | replyRelayed => "relay_reply_relayed"
  | replyExpired => "relay_reply_expired"
  | replyStray => "relay_reply_stray"
  | evtBuffered => "relay_evt_buffered"
  | evtBufferDropped => "relay_evt_buffer_dropped"
  | evtReplayed => "relay_evt_replayed"

/-- The metric of a counter. -/
def Counter.metric : Counter → String
  | perClass family _ => family.metric
  | scalar counter => counter.metric

/-- The measure of a counter in its metric: the token of its class, or the count. -/
def Counter.measure : Counter → String
  | perClass _ slot => (policyClass slot).token
  | scalar _ => COUNT_MEASURE

namespace RelaySnapshot

/-- The copies of a family. -/
def family (s : RelaySnapshot) : ClassFamily → ClassCounters
  | .uplinked => s.uplinked
  | .droppedDisabled => s.droppedDisabled
  | .droppedRate => s.droppedRate
  | .droppedDisconnected => s.droppedDisconnected

/-- The copy of a scalar counter. -/
def scalar (s : RelaySnapshot) : ScalarCounter → ℕ
  | .downlinked => s.downlinked
  | .loopDropped => s.loopDropped
  | .routedDropped => s.routedDropped
  | .malformedDropped => s.malformedDropped
  | .publishFailed => s.publishFailed
  | .replyRelayed => s.replyRelayed
  | .replyExpired => s.replyExpired
  | .replyStray => s.replyStray
  | .evtBuffered => s.evtBuffered
  | .evtBufferDropped => s.evtBufferDropped
  | .evtReplayed => s.evtReplayed

/-- The value of a counter in a snapshot. -/
def read (s : RelaySnapshot) : Counter → ℕ
  | .perClass family slot => s.family family slot
  | .scalar counter => s.scalar counter

end RelaySnapshot

/-- Before the first snapshot the baseline is zero. -/
@[simp] theorem read_default (c : Counter) : ({} : RelaySnapshot).read c = 0 := by
  cases c with
  | perClass family slot => cases family <;> rfl
  | scalar counter => cases counter <;> rfl

/-- Each family stands in the table, with its accessor. -/
theorem mem_classFamilies (f : ClassFamily) :
    (f.metric, fun s => RelaySnapshot.family s f) ∈ CLASS_FAMILIES := by
  cases f <;> simp [CLASS_FAMILIES, ClassFamily.metric, RelaySnapshot.family]

/-- Each scalar counter stands in the table, with its accessor. -/
theorem mem_scalarCounters (c : ScalarCounter) :
    (c.metric, fun s => RelaySnapshot.scalar s c) ∈ SCALAR_COUNTERS := by
  cases c <;> simp [SCALAR_COUNTERS, ScalarCounter.metric, RelaySnapshot.scalar]

/-- The delta of each slot stands among the values of its family. -/
theorem mem_zip_classMeasures (curr prev : ClassCounters) (slot : Fin 7) :
    ((policyClass slot).token, curr slot, prev slot) ∈
      CLASS_MEASURES.zip ((List.ofFn curr).zip (List.ofFn prev)) := by
  fin_cases slot <;> simp [CLASS_MEASURES, policyClass, UnsClass.token, List.ofFn_succ]

/-- Each counter has a group with its metric, which gives its measure the delta of the counter. -/
theorem exists_group (prev curr : RelaySnapshot) (c : Counter) :
    ∃ g ∈ relayMetricGroups prev curr, g.name = c.metric ∧
      g.values.lookup c.measure = some (curr.read c - prev.read c) := by
  cases c with
  | perClass f slot =>
    refine ⟨familyGroup prev curr (f.metric, fun s => s.family f), ?_, rfl, ?_⟩
    · simp [relayMetricGroups, List.mem_map_of_mem (mem_classFamilies f)]
    · apply lookup_collectValues
      · have hnames := map_fst_zip_classMeasures (curr.family f) (prev.family f)
        rw [List.map_map]
        exact (congrArg List.Nodup hnames).mpr (by decide)
      · exact List.mem_map.mpr ⟨_, mem_zip_classMeasures (curr.family f) (prev.family f) slot, rfl⟩
  | scalar c =>
    refine ⟨scalarGroup prev curr (c.metric, fun s => s.scalar c), ?_, rfl, ?_⟩
    · simp [relayMetricGroups, List.mem_map_of_mem (mem_scalarCounters c)]
    · exact lookup_collectValues (by simp) (List.mem_singleton_self _)

/-- No metric is offered twice. -/
theorem nodup_metricNames (prev curr : RelaySnapshot) :
    ((relayMetricGroups prev curr).map MetricGroup.name).Nodup := by
  have hnames : (relayMetricGroups prev curr).map MetricGroup.name =
      metricDefinitions.map MetricDef.name := by
    have hboth := congrArg (List.map Prod.fst) (map_measures_relayMetricGroups prev curr)
    rwa [List.map_map, List.map_map] at hboth
  rw [hnames]
  decide

end UnsBridge
