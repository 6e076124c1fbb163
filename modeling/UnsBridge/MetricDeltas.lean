import Mathlib.Algebra.Order.Group.Nat
import UnsBridge.Io.MetricTask
import UnsBridge.Lib.IntervalDeltas

/-!
# Emitted deltas and the counters

The metric task emits each counter as the delta since the snapshot before, and moves its baseline on
to the new snapshot at the end of a tick, whichever of the emissions have succeeded.  For one
counter, the ticks are periods that follow one another from zero to its value in the last snapshot
(`MetricTask.Sound`), and a failed emission is a report that is lost.  So the emitted deltas never
exceed the counter, and they sum to it exactly if the counter had not moved when an emission failed.
-/

namespace UnsBridge

open IntervalDeltas Transition

/-! ### What a tick reports -/

namespace Tick

/-- An emission of the metric has succeeded. -/
def succeeded (u : Tick) (metric : String) : Bool :=
  u.emissions.any fun e => e.ok && e.group.name == metric

/-- An emission of the metric has failed. -/
def failed (u : Tick) (metric : String) : Bool :=
  u.emissions.any fun e => !e.ok && e.group.name == metric

/-- The values that successful emissions of the metric gave the measure. -/
def emitted (u : Tick) (metric measure : String) : List ℕ :=
  (u.emissions.filter fun e => e.ok && e.group.name == metric).filterMap fun e =>
    e.group.values.lookup measure

/-- The tick as a period of a counter. -/
def period (c : Counter) (u : Tick) : Period ℕ where
  start := u.prev.read c
  stop := u.curr.read c
  delivered := u.succeeded c.metric

/-- The tick has offered some of its groups, in their order. -/
def Offers (u : Tick) : Prop :=
  u.emissions.map Emission.group <+: relayMetricGroups u.prev u.curr

end Tick

/-- The sum of all values emitted for a measure of a metric. -/
def emittedSum (ticks : List Tick) (metric measure : String) : ℕ :=
  (ticks.map fun u => (u.emitted metric measure).sum).sum

namespace Tick

variable {u : Tick} {c : Counter}

/-- A tick emits no metric twice. -/
theorem Offers.nodup_names (h : u.Offers) : (u.emissions.map fun e => e.group.name).Nodup := by
  have hsub := (h.sublist.map MetricGroup.name).nodup (nodup_metricNames u.prev u.curr)
  rwa [List.map_map] at hsub

/-- What holds of some emission of a metric holds of its one emission. -/
theorem Offers.any_eq (h : u.Offers) {e : Emission} (he : e ∈ u.emissions) (p : Emission → Bool) :
    (u.emissions.any fun e' => p e' && e'.group.name == e.group.name) = p e := by
  rw [Bool.eq_iff_iff, List.any_eq_true]
  constructor
  · rintro ⟨e', he', hp⟩
    obtain ⟨hpe, hname⟩ := Bool.and_eq_true_iff.mp hp
    obtain rfl := List.inj_on_of_nodup_map h.nodup_names he' he (by simpa using hname)
    exact hpe
  · intro hp
    exact ⟨e, he, by simp [hp]⟩

/-- An emission with the metric of a counter gives the measure of the counter its delta. -/
theorem Offers.lookup (h : u.Offers) {e : Emission} (he : e ∈ u.emissions)
    (hname : e.group.name = c.metric) :
    e.group.values.lookup c.measure = some (u.period c).delta := by
  obtain ⟨g, hg, hgname, hlookup⟩ := exists_group u.prev u.curr c
  have hmem : e.group ∈ relayMetricGroups u.prev u.curr := h.subset (List.mem_map_of_mem he)
  have hsame : e.group = g :=
    List.inj_on_of_nodup_map (nodup_metricNames u.prev u.curr) hmem hg (hname.trans hgname.symm)
  rw [hsame]
  exact hlookup

/-- A tick reports the delta of a counter if the emission of its metric has succeeded. -/
theorem Offers.emitted (h : u.Offers) (c : Counter) :
    u.emitted c.metric c.measure =
      if u.succeeded c.metric then [(u.period c).delta] else [] := by
  cases hsucceeded : u.succeeded c.metric with
  | true =>
    obtain ⟨e, he, hok⟩ := List.any_eq_true.mp hsucceeded
    have hname : ∀ e' : Emission, (e'.ok && e'.group.name == c.metric) = true →
        e'.group.name = c.metric := fun e' hok' => by
      simpa using (Bool.and_eq_true_iff.mp hok').2
    have hone : (u.emissions.filter fun e => e.ok && e.group.name == c.metric) = [e] :=
      Collections.filter_eq_singleton_of_nodup h.nodup_names he hok fun e' _ hok' =>
        (hname e' hok').trans (hname e hok).symm
    simp [Tick.emitted, hone, h.lookup he (hname e hok)]
  | false =>
    have hnone : (u.emissions.filter fun e => e.ok && e.group.name == c.metric) = [] := by
      rw [List.filter_eq_nil_iff]
      exact List.any_eq_false.mp hsucceeded
    simp [Tick.emitted, hnone]

end Tick

/-- What is emitted for a counter are the reports of its periods. -/
theorem emittedSum_eq_reported {ticks : List Tick} (h : ∀ u ∈ ticks, u.Offers) (c : Counter) :
    emittedSum ticks c.metric c.measure = reported (ticks.map (Tick.period c)) := by
  induction ticks with
  | nil => rfl
  | cons u ticks ih =>
    obtain ⟨hu, hticks⟩ := List.forall_mem_cons.mp h
    have hsum : (u.emitted c.metric c.measure).sum =
        if u.succeeded c.metric then (u.period c).delta else 0 := by
      rw [hu.emitted c]
      split <;> simp
    rw [List.map_cons, reported_cons, ← ih hticks]
    simp only [emittedSum, List.map_cons, List.sum_cons, hsum]
    rfl

/-! ### The runs of the metric task -/

/-- What holds of a phase, with the counters as they are: the loads made so far lie between the
baseline and the counters, and so does the snapshot, whose tick has offered what it is to offer but
for the groups that remain. -/
def MetricPhase.Sound (counters : RelayCounters) (prev : RelaySnapshot) : MetricPhase → Prop
  | .loading _ _ loaded rest =>
    ∀ c, c ∉ rest → prev.read c ≤ loaded c ∧ loaded c ≤ counters.load c
  | .emitting tick rest =>
    tick.prev = prev ∧
      (∀ c, prev.read c ≤ tick.curr.read c ∧ tick.curr.read c ≤ counters.load c) ∧
      tick.emissions.map Emission.group ++ rest = relayMetricGroups tick.prev tick.curr
  | _ => True

/-- Later counters bound what earlier ones do. -/
theorem MetricPhase.Sound.mono {counters counters' : RelayCounters} {prev : RelaySnapshot}
    {phase : MetricPhase} (h : phase.Sound counters prev)
    (hle : ∀ c, counters.load c ≤ counters'.load c) : phase.Sound counters' prev := by
  cases phase with
  | loading _ _ loaded rest =>
    exact fun c hc => ⟨(h c hc).1, (h c hc).2.trans (hle c)⟩
  | emitting tick rest =>
    obtain ⟨hprev, hbetween, hoffered⟩ := h
    exact ⟨hprev, fun c => ⟨(hbetween c).1, (hbetween c).2.trans (hle c)⟩, hoffered⟩
  | _ => trivial

/-- For each counter the finished ticks are periods from zero to the baseline, and the baseline is
at most the counter; each finished tick has offered everything. -/
structure MetricTask.Sound (counters : RelayCounters) (t : MetricTask) : Prop where
  prev_le : ∀ c, t.prev.read c ≤ counters.load c
  spans : ∀ c, Spans 0 (t.finished.map (Tick.period c)) (t.prev.read c)
  offered : ∀ u ∈ t.finished, u.emissions.map Emission.group = relayMetricGroups u.prev u.curr
  phase : t.phase.Sound counters t.prev

namespace MetricTask

variable {counters counters' : RelayCounters} {t t' : MetricTask}

/-- Nothing is wrong when the task starts. -/
theorem Sound.start (counters : RelayCounters) : ({} : MetricTask).Sound counters where
  prev_le c := by simp
  spans c := (read_default c).symm
  offered u hu := absurd hu List.not_mem_nil
  phase := trivial

/-- The task stays sound while the counters grow. -/
theorem Sound.mono (h : t.Sound counters) (hle : ∀ c, counters.load c ≤ counters'.load c) :
    t.Sound counters' where
  prev_le c := (h.prev_le c).trans (hle c)
  spans := h.spans
  offered := h.offered
  phase := h.phase.mono hle

/-- A step keeps the task sound. -/
theorem Sound.move (h : t.Sound counters) (hmove : Move counters t t') : t'.Sound counters := by
  obtain ⟨hprev, hspans, hoffered, hphase⟩ := h
  cases hmove with
  | define => exact ⟨hprev, hspans, hoffered, trivial⟩
  | immediate => exact ⟨hprev, hspans, hoffered, trivial⟩
  | tick => exact ⟨hprev, hspans, hoffered, trivial⟩
  | pendingReplies => exact ⟨hprev, hspans, hoffered, trivial⟩
  | siteConnected => exact ⟨hprev, hspans, hoffered, fun c hc => absurd (mem_loadOrder c) hc⟩
  | @load _ _ loaded k rest hload =>
    rw [hload] at hphase
    refine ⟨hprev, hspans, hoffered, fun c hc => ?_⟩
    by_cases hck : c = k
    · subst hck
      simpa using hprev c
    · simpa [hck] using hphase c (by simp [hck, hc])
  | @group _ _ loaded hload curr hcurr =>
    rw [hload] at hphase
    subst hcurr
    refine ⟨hprev, hspans, hoffered, rfl, fun c => ?_, rfl⟩
    simpa using hphase c List.not_mem_nil
  | emitted ok hemit =>
    rw [hemit] at hphase
    obtain ⟨hbase, hbetween, hgroups⟩ := hphase
    refine ⟨hprev, hspans, hoffered, hbase, hbetween, ?_⟩
    simpa using hgroups
  | @advance tick hemit =>
    rw [hemit] at hphase
    obtain ⟨hbase, hbetween, hgroups⟩ := hphase
    refine ⟨fun c => (hbetween c).2, fun c => ?_, fun u hu => ?_, trivial⟩
    · rw [List.map_append]
      exact (hspans c).snoc (congrArg (RelaySnapshot.read · c) hbase) (hbetween c).1
    · rcases List.mem_append.mp hu with hu | hu
      · exact hoffered u hu
      · obtain rfl := List.mem_singleton.mp hu
        simpa using hgroups

end MetricTask

/-- The task is sound in every state of every run. -/
theorem Metering.sound {s : Metering} (h : system.Reachable System.anyStep s) :
    s.task.Sound s.counters := by
  apply h.invariant (I := fun s => s.task.Sound s.counters)
  · rintro s rfl
    exact .start _
  · intro s a s' _ hI _ hstep
    cases a with
    | count bumps =>
      cases hstep
      exact hI.mono (s.counters.load_le_bumpAll bumps)
    | task a =>
      obtain ⟨task, htask, rfl⟩ := Option.map_eq_some_iff.mp hstep
      exact hI.move (MetricTask.step_move htask)

/-! ### The ticks of a run -/

namespace MetricTask

variable {counters : RelayCounters} {t : MetricTask} {u : Tick} {before after : List Tick}

/-- Whatever tick is singled out, the ones before it are finished. -/
theorem subset_finished (h : t.ticks = before ++ u :: after) : before ⊆ t.finished := by
  unfold ticks at h
  rcases List.append_eq_append_iff.mp h with ⟨rest, rfl, hcurrent⟩ | ⟨rest, hfinished, -⟩
  · -- the tick on its way is the last one
    cases hphase : t.phase.current with
    | none => simp [hphase] at hcurrent
    | some tick =>
      rw [hphase, Option.toList_some] at hcurrent
      obtain rfl : rest = [] := by
        cases rest with
        | nil => rfl
        | cons x rest => simp at hcurrent
      simp
  · rw [hfinished]
    exact List.subset_append_left _ _

/-- A finished tick has offered all its groups. -/
theorem Sound.offers_of_finished (h : t.Sound counters) (hu : u ∈ t.finished) : u.Offers := by
  rw [Tick.Offers, h.offered u hu]

/-- The tick on its way: it starts from the baseline, its snapshot is at most the counters, and it
has offered some of its groups. -/
theorem Sound.of_current (h : t.Sound counters) (hu : t.phase.current = some u) :
    u.prev = t.prev ∧ (∀ c, t.prev.read c ≤ u.curr.read c ∧ u.curr.read c ≤ counters.load c) ∧
      u.Offers := by
  have hphase := h.phase
  cases hcase : t.phase with
  | emitting tick rest =>
    rw [hcase] at hu hphase
    obtain rfl := Option.some.inj hu
    exact ⟨hphase.1, hphase.2.1, rest, hphase.2.2⟩
  | _ => simp [hcase, MetricPhase.current] at hu

/-- Every tick offers its groups in their order. -/
theorem Sound.offers (h : t.Sound counters) (hu : u ∈ t.ticks) : u.Offers := by
  rcases List.mem_append.mp hu with hu | hu
  · exact h.offers_of_finished hu
  · exact (h.of_current (Option.mem_toList.mp hu)).2.2

/-- In a finished tick the emission of a counter has either succeeded or failed. -/
theorem Sound.failed_iff (h : t.Sound counters) (hu : u ∈ t.finished) (c : Counter) :
    u.failed c.metric = true ↔ u.succeeded c.metric = false := by
  have hoffers := h.offers_of_finished hu
  obtain ⟨g, hg, hname, -⟩ := exists_group u.prev u.curr c
  rw [← h.offered u hu] at hg
  obtain ⟨e, he, rfl⟩ := List.mem_map.mp hg
  have hfailed : u.failed c.metric = !e.ok := hname ▸ hoffers.any_eq he fun e => !e.ok
  have hsucceeded : u.succeeded c.metric = e.ok := hname ▸ hoffers.any_eq he Emission.ok
  rw [hfailed, hsucceeded]
  simp

/-- The ticks are periods of each counter, from zero to a value the counter has had. -/
theorem Sound.exists_spans (h : t.Sound counters) (c : Counter) :
    ∃ b ≤ counters.load c, Spans 0 (t.ticks.map (Tick.period c)) b := by
  unfold ticks
  cases hcurrent : t.phase.current with
  | none => exact ⟨t.prev.read c, h.prev_le c, by simpa using h.spans c⟩
  | some u =>
    obtain ⟨hbase, hbetween, -⟩ := h.of_current hcurrent
    refine ⟨u.curr.read c, (hbetween c).2, ?_⟩
    rw [Option.toList_some, List.map_append]
    exact (h.spans c).snoc (congrArg (RelaySnapshot.read · c) hbase) (hbetween c).1

/-- Up to each tick, the periods of a counter lead from zero to its value in the snapshot. -/
theorem Sound.spans_tick (h : t.Sound counters) (hticks : t.ticks = before ++ u :: after)
    (c : Counter) : Spans 0 ((before ++ [u]).map (Tick.period c)) (u.curr.read c) := by
  obtain ⟨b, -, hspans⟩ := h.exists_spans c
  rw [hticks, List.append_cons, List.map_append, spans_append] at hspans
  obtain ⟨b', hspans, -⟩ := hspans
  have hstop := hspans
  rw [List.map_append, spans_append] at hstop
  obtain ⟨_, -, -, -, rfl⟩ := hstop
  exact hspans

end MetricTask

/-- The metrics that a tick has offered so far, with their measures. -/
def Tick.offered (u : Tick) : List (String × Finset String) :=
  u.emissions.map fun e => e.group.measures

/-- Emitted deltas and counters, for every run of the metric task, with any increments of the
counters in between and any emissions failing.  Each tick offers exactly the metrics and measures
that are defined.  After a tick in which the emission of a counter's metric has succeeded, the
values that were emitted for the counter sum to at most its value in the snapshot of the tick; and
they sum to exactly that value if and only if, whenever an earlier emission of the metric failed,
the counter had not moved since the snapshot before. -/
theorem emitted_deltas_sum_iff {s : Metering} (h : Metering.system.Reachable System.anyStep s) :
    ((∀ u ∈ s.task.finished, u.offered = metricDefinitions.map MetricDef.offer) ∧
      ∀ u rest, s.task.phase = .emitting u rest →
        u.offered ++ rest.map MetricGroup.measures = metricDefinitions.map MetricDef.offer) ∧
    ∀ before u after, s.task.ticks = before ++ u :: after →
      ∀ c : Counter, u.succeeded c.metric = true →
        emittedSum (before ++ [u]) c.metric c.measure ≤ u.curr.read c ∧
        (emittedSum (before ++ [u]) c.metric c.measure = u.curr.read c ↔
          ∀ v ∈ before, v.failed c.metric = true → v.curr.read c = v.prev.read c) := by
  have hsound := Metering.sound h
  refine ⟨⟨fun u hu => ?_, fun u rest hphase => ?_⟩, fun before u after hticks c hu => ?_⟩
  · have hgroups := congrArg (List.map MetricGroup.measures) (hsound.offered u hu)
    rwa [List.map_map, map_measures_relayMetricGroups] at hgroups
  · have hsplit := hsound.phase
    rw [hphase] at hsplit
    have hgroups := congrArg (List.map MetricGroup.measures) hsplit.2.2
    rwa [List.map_append, List.map_map, map_measures_relayMetricGroups] at hgroups
  · have hoffers : ∀ v ∈ before ++ [u], v.Offers := fun v hv => by
      apply hsound.offers
      rw [hticks, List.append_cons]
      exact List.mem_append_left _ hv
    have hspans := hsound.spans_tick hticks c
    rw [emittedSum_eq_reported hoffers c, ← zero_add (reported _)]
    refine ⟨hspans.reported_le, hspans.reported_eq_iff.trans ?_⟩
    have hfinished := MetricTask.subset_finished hticks
    simp only [List.map_append, List.mem_append, List.mem_map, List.map_singleton,
      List.mem_singleton]
    constructor
    · intro hall v hv hfailed
      exact hall _ (Or.inl ⟨v, hv, rfl⟩) ((hsound.failed_iff (hfinished hv) c).mp hfailed)
    · rintro hall _ (⟨v, hv, rfl⟩ | rfl) hlost
      · exact hall v hv ((hsound.failed_iff (hfinished hv) c).mpr hlost)
      · exact absurd (hu.symm.trans hlost) (by decide)

/-- The steps of a tick up to its first load. -/
def tickBegin : List MeteringAction :=
  [.task .tick, .task (.pendingReplies 0), .task (.siteConnected true)]

/-- The steps of a tick whose emissions end as given. -/
def tickRun (outcomes : List Bool) : List MeteringAction :=
  tickBegin ++ loadOrder.map (fun _ => .task .load) ++ [.task .group] ++
    outcomes.map (fun ok => .task (.emitted ok)) ++ [.task .advance]

/-- A command is relayed before each of two ticks; the emissions of the first one fail. -/
def failedEmissionRun : List MeteringAction :=
  [.task .define, .task .tick, .count [.downlinked]] ++ tickRun (List.replicate 17 false) ++
    [.count [.downlinked]] ++ tickRun (List.replicate 17 true)

/-- What a tick says about the relayed commands. -/
def Tick.downlinked (u : Tick) : Bool × Bool × List ℕ × ℕ × ℕ :=
  (u.succeeded "relay_downlinked", u.failed "relay_downlinked",
    u.emitted "relay_downlinked" "count", u.prev.downlinked, u.curr.downlinked)

/-- The command relayed before the tick that failed is never reported. -/
theorem failed_emission_loses_delta :
    ¬ ∀ s, Metering.system.Reachable System.anyStep s →
      ∀ before u after, s.task.ticks = before ++ u :: after →
        ∀ c : Counter, u.succeeded c.metric = true →
          emittedSum (before ++ [u]) c.metric c.measure = u.curr.read c := by
  intro hall
  obtain ⟨s, hs, hobs⟩ := System.exists_reachable_of_exec (M := Metering.system)
    (fun _ _ => true) (fun _ _ _ => trivial) (.init rfl) failedEmissionRun
    (fun s => s.task.ticks.map Tick.downlinked)
    (x := [(false, true, [], 0, 1), (true, false, [1], 1, 2)]) (by decide +kernel)
  obtain ⟨u, ticks, hticks, hu, hrest⟩ := List.map_eq_cons_iff.mp hobs
  obtain ⟨v, ticks, rfl, hv, hnil⟩ := List.map_eq_cons_iff.mp hrest
  obtain rfl := List.map_eq_nil_iff.mp hnil
  simp only [Tick.downlinked, Prod.mk.injEq] at hu hv
  obtain ⟨-, -, hlost, -, -⟩ := hu
  obtain ⟨hsucceeded, -, hone, -, htwo⟩ := hv
  have hsum := hall s hs [u] v [] hticks (.scalar .downlinked) hsucceeded
  have hemitted : emittedSum ([u] ++ [v]) "relay_downlinked" "count" = 1 := by
    simp [emittedSum, hlost, hone]
  have hvalue : v.curr.read (.scalar .downlinked) = 2 := htwo
  exact absurd (hemitted.symm.trans (hsum.trans hvalue)) (by decide)

/-- Two commands are relayed, one of them while a snapshot is taken; a tick in between, in which
nothing has moved, fails. -/
def meteringRun : List MeteringAction :=
  [.task .define, .task .tick, .count [.downlinked]] ++ tickRun (List.replicate 17 true) ++
    tickRun (List.replicate 17 false) ++ tickBegin ++
    (loadOrder.take 20).map (fun _ => .task .load) ++ [.count [.downlinked, .uplinked .evt]] ++
    (loadOrder.drop 20).map (fun _ => .task .load) ++ [.task .group] ++
    List.replicate 17 (.task (.emitted true))

/-- In the third tick of the sample run the emitted deltas sum to the two commands. -/
theorem emitted_deltas_sum_downlinked : ∃ (s : Metering) (before : List Tick) (u : Tick),
    s.task.ticks = before ++ [u] ∧ u.curr.downlinked = 2 ∧
      (∃ v ∈ before, v.failed "relay_downlinked" = true) ∧
      emittedSum (before ++ [u]) "relay_downlinked" "count" = 2 := by
  obtain ⟨s, hs, hobs⟩ := System.exists_reachable_of_exec (M := Metering.system)
    (fun _ _ => true) (fun _ _ _ => trivial) (.init rfl) meteringRun
    (fun s => s.task.ticks.map Tick.downlinked)
    (x := [(true, false, [1], 0, 1), (false, true, [], 1, 1), (true, false, [1], 1, 2)])
    (by decide +kernel)
  obtain ⟨u₁, ticks, hticks, h₁, hrest⟩ := List.map_eq_cons_iff.mp hobs
  obtain ⟨u₂, ticks, rfl, h₂, hrest⟩ := List.map_eq_cons_iff.mp hrest
  obtain ⟨u₃, ticks, rfl, h₃, hnil⟩ := List.map_eq_cons_iff.mp hrest
  obtain rfl := List.map_eq_nil_iff.mp hnil
  simp only [Tick.downlinked, Prod.mk.injEq] at h₁ h₂ h₃
  obtain ⟨-, hkept, -, -, -⟩ := h₁
  obtain ⟨-, hfailed, -, hprev, hcurr⟩ := h₂
  obtain ⟨hsucceeded, -, -, -, htwo⟩ := h₃
  have hsplit : s.task.ticks = [u₁, u₂] ++ u₃ :: [] := hticks
  obtain ⟨-, hsum⟩ := (emitted_deltas_sum_iff hs).2 [u₁, u₂] u₃ [] hsplit (.scalar .downlinked)
    hsucceeded
  refine ⟨s, [u₁, u₂], u₃, hsplit, htwo, ⟨u₂, by simp, hfailed⟩, ?_⟩
  refine (hsum.mpr fun v hv hvfailed => ?_).trans htwo
  rcases List.mem_pair.mp hv with rfl | rfl
  · exact absurd (hkept.symm.trans hvfailed) (by decide)
  · exact hcurr.trans hprev.symm

end UnsBridge
