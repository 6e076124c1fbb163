import UnsBridge.Accounting
import UnsBridge.MetricDeltas

/-!
# The relay with its metrics

The relay and the metric task share the counters: the tasks of the relay increment them, the metric
task loads them, and it reads the size of the correlation map and the state of the site link.  A run
of both is a run of the relay and a run of the metric task beside counters that grow
(`ObservedRelay.reachable_io`, `ObservedRelay.reachable_metering`), so what the metrics report is
bounded by what the relay has done: the messages that they report as settled never exceed the
messages that were received.
-/

namespace UnsBridge

open IntervalDeltas Transition

variable {Bytes ρ : Type}

/-- The relay and its metric task. -/
structure ObservedRelay (Bytes : Type) where
  io : RelayIo Bytes
  metrics : MetricTask

/-- A step of the relay, or of the metric task. -/
inductive ObservedRelayAction (Bytes : Type) where
  | io (a : RelayIoAction Bytes)
  | metrics (a : MetricAction)

/-- The gauges are read from the relay as it is. -/
def RelayIo.shows (s : RelayIo Bytes) : MetricAction → Bool
  | .pendingReplies n => n = s.down.correlator.pending.length
  | .siteConnected up => up = s.up.siteUp
  | _ => true

namespace ObservedRelay

/-- One step. -/
def step [Inhabited ρ] (S : Setup Bytes ρ) (s : ObservedRelay Bytes) :
    ObservedRelayAction Bytes → Option (ObservedRelay Bytes)
  | .io a => (s.io.step S a).map fun io => { s with io }
  | .metrics a =>
    if s.io.shows a then (s.metrics.step s.io.counters a).map fun metrics => { s with metrics }
    else none

/-- The relay with its metrics as a transition system. -/
def system [Inhabited ρ] (S : Setup Bytes ρ) :
    System (ObservedRelay Bytes) (ObservedRelayAction Bytes) where
  init s := ∃ siteUp, s = { io := .start S siteUp, metrics := {} }
  step s a := s.step S a

/-- A guard on the steps of the relay. -/
def onIo (R : RelayIo Bytes → RelayIoAction Bytes → Prop) (s : ObservedRelay Bytes)
    (a : ObservedRelayAction Bytes) : Prop :=
  ∀ b, a = .io b → R s.io b

variable [Inhabited ρ] {S : Setup Bytes ρ} {s s' : ObservedRelay Bytes}

/-- A step of the relay. -/
theorem step_io {a : RelayIoAction Bytes} (h : s.step S (.io a) = some s') :
    s.io.step S a = some s'.io ∧ s'.metrics = s.metrics := by
  obtain ⟨io, hio, rfl⟩ := Option.map_eq_some_iff.mp h
  exact ⟨hio, rfl⟩

/-- A step of the metric task. -/
theorem step_metrics {a : MetricAction} (h : s.step S (.metrics a) = some s') :
    s.metrics.step s.io.counters a = some s'.metrics ∧ s'.io = s.io := by
  simp only [step] at h
  split at h
  · obtain ⟨metrics, hmetrics, rfl⟩ := Option.map_eq_some_iff.mp h
    exact ⟨hmetrics, rfl⟩
  · cases h

/-- A run with metrics projects to a run of the relay. -/
theorem reachable_io {R : RelayIo Bytes → RelayIoAction Bytes → Prop}
    (h : (system S).Reachable (onIo R) s) : (RelayIo.system S).Reachable R s.io := by
  apply h.map ObservedRelay.io (fun a => match a with | .io b => some b | .metrics _ => none)
  · rintro s ⟨siteUp, rfl⟩
    exact ⟨siteUp, rfl⟩
  · intro s a s' hR hstep
    cases a with
    | io b => exact ⟨hR b rfl, (step_io hstep).1⟩
    | metrics b => exact (step_metrics (S := S) hstep).2

/-- A run with metrics is a run of the metric task beside counters that grow. -/
theorem reachable_metering {P : ObservedRelay Bytes → ObservedRelayAction Bytes → Prop}
    (h : (system S).Reachable P s) :
    Metering.system.Reachable System.anyStep { counters := s.io.counters, task := s.metrics } := by
  apply h.invariant (I := fun s =>
    Metering.system.Reachable System.anyStep { counters := s.io.counters, task := s.metrics })
  · rintro s ⟨siteUp, rfl⟩
    exact .init rfl
  · intro s a s' _ hI _ hstep
    cases a with
    | io b =>
      obtain ⟨hio, hmetrics⟩ := step_io hstep
      obtain ⟨bumps, hcounters⟩ : ∃ bumps, s'.io.counters = s.io.counters.bumpAll bumps := by
        cases b with
        | up b =>
          obtain ⟨bumps, -, -, hcounters⟩ := RelayIo.step_up hio
          exact ⟨bumps, hcounters⟩
        | down b =>
          obtain ⟨bumps, -, -, hcounters⟩ := RelayIo.step_down hio
          exact ⟨bumps, hcounters⟩
      rw [hmetrics, hcounters]
      exact hI.step (a := .count bumps) trivial rfl
    | metrics b =>
      obtain ⟨hmetrics, hio⟩ := step_metrics (S := S) hstep
      rw [hio]
      exact hI.step (a := .task b) trivial (Option.map_eq_some_iff.mpr ⟨_, hmetrics, rfl⟩)

/-- What has been emitted for a counter never exceeds the counter. -/
theorem emittedSum_le_load {P : ObservedRelay Bytes → ObservedRelayAction Bytes → Prop}
    (h : (system S).Reachable P s) (c : Counter) :
    emittedSum s.metrics.ticks c.metric c.measure ≤ s.io.counters.load c := by
  have hsound : s.metrics.Sound s.io.counters := Metering.sound (reachable_metering h)
  obtain ⟨b, hb, hspans⟩ := hsound.exists_spans c
  calc emittedSum s.metrics.ticks c.metric c.measure
      = reported (s.metrics.ticks.map (Tick.period c)) :=
        emittedSum_eq_reported (fun u hu => hsound.offers hu) c
    _ ≤ b := by simpa using hspans.reported_le
    _ ≤ s.io.counters.load c := hb

end ObservedRelay

/-- The counters that settle a received message. -/
def settlingCounters : List Counter :=
  ClassFamily.all.flatMap (fun family => (List.finRange 7).map (.perClass family)) ++
    [.scalar .downlinked, .scalar .loopDropped, .scalar .routedDropped, .scalar .malformedDropped,
      .scalar .publishFailed, .scalar .replyRelayed, .scalar .replyStray, .scalar .evtReplayed,
      .scalar .evtBufferDropped]

/-- Their sum is the number of settled messages. -/
theorem RelayCounters.settled_eq_sum (c : RelayCounters) :
    c.settled = (settlingCounters.map c.load).sum := by
  have htotal : ∀ f, ((List.finRange 7).map fun slot => c.load (.perClass f slot)).sum =
      (c.family f).total := fun f => (Fin.sum_univ_def _).symm
  simp only [settlingCounters, ClassFamily.all, List.flatMap_cons, List.flatMap_nil,
    List.append_nil, List.map_append, List.map_map, Function.comp_def, List.sum_append, htotal]
  simp [settled, family, load, scalar, add_assoc]

/-- The metrics never report more settled messages than the relay has received: in every run,
whatever emissions fail, the values emitted for the counters that settle a message sum to at most
the number of messages that the pumps and the reply pumps have received. -/
theorem emitted_settled_le_received [Inhabited ρ] (S : Setup Bytes ρ) {s : ObservedRelay Bytes}
    (h : (ObservedRelay.system S).Reachable System.anyStep s) :
    (settlingCounters.map fun c => emittedSum s.metrics.ticks c.metric c.measure).sum ≤
      s.io.up.bus.received.length + s.io.down.bus.received.length + s.io.down.arrivals.length := by
  have hio := ObservedRelay.reachable_io (S := S) (R := System.anyStep)
    (h.mono fun _ _ _ _ _ => trivial)
  have hsettled : s.io.Settled S := RelayIo.settled hio
  unfold RelayIo.Settled at hsettled
  calc (settlingCounters.map fun c => emittedSum s.metrics.ticks c.metric c.measure).sum
      ≤ (settlingCounters.map s.io.counters.load).sum :=
        List.sum_le_sum fun c _ => ObservedRelay.emittedSum_le_load h c
    _ = s.io.counters.settled := (RelayCounters.settled_eq_sum _).symm
    _ ≤ _ := by omega

/-- Three `state` messages are received, and two of them relayed. -/
def relayedRun : List (UplinkAction (Message Unit)) :=
  List.replicate 3 (.publish "ecv1/gw-01/adapter/main/state" (.sample none)) ++
    [.recv 0, .relayUp 0 0, .published 0 .ok, .recv 0, .relayUp 0 0, .published 0 .ok, .recv 0]

/-- The metric task goes through its first tick. -/
def tickedRun : List MetricAction :=
  [.define, .tick, .tick, .pendingReplies 0, .siteConnected true] ++
    loadOrder.map (fun _ => .load) ++ [.group] ++ List.replicate 17 (.emitted true)

/-- After the sample run the metrics report two of the three received messages as settled. -/
theorem emitted_settled_le_received_gw01 : ∃ s : ObservedRelay (Message Unit),
    s.io.up.bus.received.length = 3 ∧
      emittedSum s.metrics.ticks "relay_uplinked" "state" = 2 ∧
      (settlingCounters.map fun c => emittedSum s.metrics.ticks c.metric c.measure).sum ≤ 3 := by
  obtain ⟨s, hs, hobs⟩ := System.exists_reachable_of_exec
    (M := ObservedRelay.system Setup.gw01) (fun _ _ => true) (P := System.anyStep)
    (fun _ _ _ => trivial) (.init ⟨true, rfl⟩)
    (relayedRun.map (fun a => .io (.up a)) ++ tickedRun.map .metrics)
    (fun s => (s.io.up.bus.received.length, s.io.down.bus.received.length,
      s.io.down.arrivals.length, s.metrics.ticks.map fun u => u.emitted "relay_uplinked" "state"))
    (x := (3, 0, 0, [[2]])) (by decide +kernel)
  simp only [Prod.mk.injEq] at hobs
  obtain ⟨hup, hdown, hreplies, hticks⟩ := hobs
  have hle := emitted_settled_le_received Setup.gw01 hs
  rw [hup, hdown, hreplies] at hle
  have hemitted : emittedSum s.metrics.ticks "relay_uplinked" "state" =
      ((s.metrics.ticks.map fun u => u.emitted "relay_uplinked" "state").map List.sum).sum := by
    simp [emittedSum, Function.comp_def]
  refine ⟨s, hup, ?_, hle⟩
  rw [hemitted, hticks]
  rfl

end UnsBridge
