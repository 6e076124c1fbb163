import UnsBridge.ClassIsolation
import UnsBridge.ObservedRelay

/-!
# What the counters of a class say

Each class has its own counters, which the metrics report.  A message has the class of the pump that
received it.  Whatever the tasks are in the middle of, the counters add up to what happened to the
messages of the class: to what has been delivered to the site, and to what has been discarded.  Each
drop is counted under a reason that the configuration gives, and the metrics never report more than
has happened: `class_counters_exact`.
-/

namespace UnsBridge

open IntervalDeltas Transition

variable {Bytes ρ : Type}

/-! ### Increments -/

/-- An increment of a class adds one to its slot, and nothing to the other ones. -/
theorem ClassCounters.incr_apply (c : ClassCounters) {cls : UnsClass} {slot : Fin 7}
    (hslot : classIndex cls = some slot) (other : UnsClass) :
    c.incr other slot = c slot + (decide (other = cls)).toNat := by
  unfold incr
  by_cases hsame : other = cls
  · subst hsame
    simp [hslot]
  · cases hindex : classIndex other with
    | none => simp [hsame]
    | some i =>
      have hne : slot ≠ i := by
        rintro rfl
        exact hsame (UplinkPolicy.classIndex_injective hindex hslot)
      simp [hsame, hne]

/-- If one increment adds one to a measure of the counters, or nothing, then the increments of a
step add what they do one by one. -/
theorem RelayCounters.measure_bumpAll (μ : RelayCounters → ℕ) (adds : Bump → Bool)
    (hbump : ∀ c b, μ (c.bump b) = μ c + (adds b).toNat) (c : RelayCounters) (bumps : List Bump) :
    μ (c.bumpAll bumps) = μ c + bumps.countP adds := by
  unfold bumpAll
  induction bumps generalizing c with
  | nil => rfl
  | cons b bumps ih =>
    have hcons : (b :: bumps).countP adds = bumps.countP adds + (adds b).toNat := by
      rw [List.countP_cons]
      cases adds b <;> rfl
    rw [List.foldl_cons, ih, hbump, hcons]
    omega

/-- Whether an increment counts a message of a class as delivered. -/
def Bump.delivers (cls : UnsClass) : Bump → Bool
  | .uplinked other => other = cls
  | .evtReplayed => cls = .evt
  | _ => false

/-- Whether an increment counts a message of a class as discarded. -/
def Bump.discards (cls : UnsClass) : Bump → Bool
  | .droppedDisabled other | .droppedRate other | .droppedDisconnected other => other = cls
  | .evtBufferDropped => cls = .evt
  | _ => false

/-- The increment of a class in a family. -/
def ClassFamily.bump (cls : UnsClass) : ClassFamily → Bump
  | .uplinked => .uplinked cls
  | .droppedDisabled => .droppedDisabled cls
  | .droppedRate => .droppedRate cls
  | .droppedDisconnected => .droppedDisconnected cls

/-- Whether an increment is one of the downlink. -/
def Bump.isDown : Bump → Bool
  | .downlinked | .drop _ | .publishFailed | .replyRelayed | .replyExpired | .replyStray => true
  | _ => false

namespace RelayCounters

/-- The messages of a class that are counted as delivered. -/
def delivered (c : RelayCounters) (cls : UnsClass) (slot : Fin 7) : ℕ :=
  c.uplinked slot + if cls = .evt then c.evtReplayed else 0

/-- The messages of a class that are counted as discarded. -/
def discarded (c : RelayCounters) (cls : UnsClass) (slot : Fin 7) : ℕ :=
  c.droppedDisabled slot + c.droppedRate slot + c.droppedDisconnected slot +
    if cls = .evt then c.evtBufferDropped else 0

variable {cls : UnsClass} {slot : Fin 7} (hslot : classIndex cls = some slot)
include hslot

/-- The increments of a step change the delivered messages of a class by those they count. -/
theorem delivered_bumpAll (c : RelayCounters) (bumps : List Bump) :
    (c.bumpAll bumps).delivered cls slot =
      c.delivered cls slot + bumps.countP (Bump.delivers cls) := by
  refine measure_bumpAll (fun c => c.delivered cls slot) (Bump.delivers cls) (fun c b => ?_) c bumps
  cases b with
  | drop reason => cases reason <;> rfl
  | uplinked other =>
    simp only [bump, delivered, Bump.delivers, ClassCounters.incr_apply _ hslot]
    omega
  | evtReplayed =>
    simp only [bump, delivered, Bump.delivers]
    by_cases hevt : cls = .evt
    · simp [hevt, Nat.add_assoc]
    · simp [hevt]
  | _ => rfl

/-- The increments of a step change the discarded messages of a class by those they count. -/
theorem discarded_bumpAll (c : RelayCounters) (bumps : List Bump) :
    (c.bumpAll bumps).discarded cls slot =
      c.discarded cls slot + bumps.countP (Bump.discards cls) := by
  refine measure_bumpAll (fun c => c.discarded cls slot) (Bump.discards cls) (fun c b => ?_) c bumps
  cases b with
  | drop reason => cases reason <;> rfl
  | droppedDisabled other =>
    simp only [bump, discarded, Bump.discards, ClassCounters.incr_apply _ hslot]
    omega
  | droppedRate other =>
    simp only [bump, discarded, Bump.discards, ClassCounters.incr_apply _ hslot]
    omega
  | droppedDisconnected other =>
    simp only [bump, discarded, Bump.discards, ClassCounters.incr_apply _ hslot]
    omega
  | evtBufferDropped =>
    simp only [bump, discarded, Bump.discards]
    by_cases hevt : cls = .evt
    · simp [hevt, Nat.add_assoc]
    · simp [hevt]
  | _ => rfl

/-- The increments of a step change a slot of a family by those of its class. -/
theorem family_bumpAll (c : RelayCounters) (family : ClassFamily) (bumps : List Bump) :
    (c.bumpAll bumps).family family slot =
      c.family family slot + bumps.countP fun b => b = family.bump cls := by
  refine measure_bumpAll (fun c => c.family family slot) (fun b => b = family.bump cls)
    (fun c b => ?_) c bumps
  cases b with
  | drop reason => cases reason <;> cases family <;> rfl
  | uplinked other | droppedDisabled other | droppedRate other | droppedDisconnected other =>
    cases family <;>
      simp [bump, RelayCounters.family, ClassFamily.bump, ClassCounters.incr_apply _ hslot]
  | _ => cases family <;> rfl

end RelayCounters

/-! ### Reasons -/

/-- A drop is counted under a reason that the configuration gives. -/
def Setup.Warrants (S : Setup Bytes ρ) : Bump → Prop
  | .droppedDisabled cls => S.policy.classEnabled cls = false
  | .droppedRate cls => S.policy.hasRateCap cls = true
  | .droppedDisconnected cls => cls = .evt → S.policy.evtBufferMax = 0
  | _ => True

namespace Uplink

variable [Inhabited ρ] {S : Setup Bytes ρ} {s s' : Uplink Bytes} {a : UplinkAction Bytes}
  {bumps : List Bump}

/-- Every drop is counted under a reason that the configuration gives. -/
theorem step_warranted (hbooks : s.Books S) (h : s.step S a = some (s', bumps)) :
    ∀ b ∈ bumps, S.Warrants b := by
  have hwf := hbooks.wf
  have hcls : ∀ i, ∀ m ∈ (s.pumps i).load, S.pumpClass i = some m.cls :=
    fun i m hm => (hbooks.placed.pump i m hm).2
  have hmax := hwf.policy.evtBufferMax
  cases step_move h with
  | capped i now m policy hpump hadmits =>
    have hcap := admit_cases hwf hcls hpump now
    rw [hadmits] at hcap
    simpa [Setup.Warrants] using hcap
  | disabled i now m hpump hverdict =>
    have hdisabled := admit_cases hwf hcls hpump now
    rw [hverdict] at hdisabled
    simpa [Setup.Warrants] using hdisabled
  | disconnected i now m hpump hverdict =>
    have hoff := admit_cases hwf hcls hpump now
    rw [hverdict] at hoff
    simpa [Setup.Warrants] using hoff
  | reject a i m hpush hoff => simp [Setup.Warrants, ← hmax, hoff]
  | lose i m hpump hevt => simp [Setup.Warrants, hevt]
  | _ => simp [Setup.Warrants]

end Uplink

/-! ### Messages -/

namespace Flow

variable [Inhabited ρ] {S : Setup Bytes ρ} {f f' : Flow Bytes} {a : UplinkAction Bytes}
  {bumps : List Bump}

/-- What a step delivers, its counters count. -/
theorem Move.delivered (hplaced : f.Placed S) (h : Move S f a f' bumps) (cls : UnsClass) :
    f'.delivered.countP (fun m => m.cls = cls) =
      f.delivered.countP (fun m => m.cls = cls) + bumps.countP (Bump.delivers cls) := by
  cases h with
  | lose a i m b hload hbump => rcases hbump with rfl | rfl | rfl <;> rfl
  | deliver a i m hpump => simp [List.countP_append, List.countP_singleton, Bump.delivers]
  | replayed a m hheld =>
    have hevt : m.cls = .evt := hplaced.evt m (by simp [hheld])
    simp [List.countP_append, List.countP_singleton, Bump.delivers, hevt, eq_comm]
  | _ => simp [Bump.delivers]

/-- What a step discards, its counters count. -/
theorem Move.discarded (hplaced : f.Placed S) (h : Move S f a f' bumps) (cls : UnsClass) :
    f'.discarded.countP (fun m => m.cls = cls) =
      f.discarded.countP (fun m => m.cls = cls) + bumps.countP (Bump.discards cls) := by
  cases h with
  | lose a i m b hload hbump =>
    rcases hbump with rfl | rfl | rfl <;>
      simp [List.countP_append, List.countP_singleton, Bump.discards]
  | evict a i m oldest rest hload hevt henabled hfull hbuffer =>
    have hold : oldest.cls = .evt := hplaced.evt oldest (by simp [hbuffer])
    simp [List.countP_append, List.countP_cons, Bump.discards, hold, eq_comm]
  | refuseRequeue a m hheld hfull =>
    have hevt : m.cls = .evt := hplaced.evt m (by simp [hheld])
    simp [List.countP_append, List.countP_singleton, Bump.discards, hevt, eq_comm]
  | _ => simp [Bump.discards]

end Flow

/-- A step of the downlink increments counters of the downlink only. -/
theorem Downlink.Move.isDown [Inhabited ρ] {S : Setup Bytes ρ} {s s' : Downlink Bytes}
    {a : DownlinkAction Bytes} {bumps : List Bump} (h : Downlink.Move S s a s' bumps) :
    ∀ b ∈ bumps, b.isDown = true := by
  have hexpiry : ∀ topics, ∀ b ∈ countExpiry topics, b.isDown = true := by
    intro topics b hb
    obtain ⟨t, -, rfl⟩ := List.mem_map.mp hb
    rfl
  cases h with
  | settle i outcome m b hpump hb => rcases hb with rfl | rfl <;> simp [Bump.isDown]
  | sweep => exact hexpiry _
  | swept outcome t rest => exact hexpiry rest
  | relayed k outcome t b hphase hb => rcases hb with rfl | rfl <;> simp [Bump.isDown]
  | _ => simp [Bump.isDown]

namespace RelayIo

/-- The counters of the classes say what happened to the messages of the class. -/
structure ClassBooks (S : Setup Bytes ρ) (s : RelayIo Bytes) : Prop where
  delivered : ∀ cls slot, classIndex cls = some slot →
    s.up.delivered.countP (fun m => m.cls = cls) = s.counters.delivered cls slot
  discarded : ∀ cls slot, classIndex cls = some slot →
    s.up.discarded.countP (fun m => m.cls = cls) = s.counters.discarded cls slot
  warranted : ∀ cls slot family, classIndex cls = some slot → ¬ S.Warrants (family.bump cls) →
    s.counters.family family slot = 0

variable [Inhabited ρ] {S : Setup Bytes ρ} {s s' : RelayIo Bytes}

/-- A step of the uplink tasks keeps the books of the classes. -/
theorem ClassBooks.up (h : s.ClassBooks S) (hbooks : s.up.Books S) {a : UplinkAction Bytes}
    (hstep : s.step S (.up a) = some s') : s'.ClassBooks S := by
  obtain ⟨bumps, hs, -, hcounters⟩ := step_up hstep
  have hmove := (hbooks.step hs).2
  constructor
  · intro cls slot hslot
    rw [hcounters, RelayCounters.delivered_bumpAll hslot, ← h.delivered cls slot hslot]
    exact hmove.delivered hbooks.placed cls
  · intro cls slot hslot
    rw [hcounters, RelayCounters.discarded_bumpAll hslot, ← h.discarded cls slot hslot]
    exact hmove.discarded hbooks.placed cls
  · intro cls slot family hslot hnot
    rw [hcounters, RelayCounters.family_bumpAll hslot, h.warranted cls slot family hslot hnot,
      Nat.zero_add, List.countP_eq_zero]
    intro b hb hsame
    exact hnot (of_decide_eq_true hsame ▸ Uplink.step_warranted hbooks hs b hb)

/-- A step of the downlink tasks does not touch them. -/
theorem ClassBooks.down (h : s.ClassBooks S) {a : DownlinkAction Bytes}
    (hstep : s.step S (.down a) = some s') : s'.ClassBooks S := by
  obtain ⟨bumps, hs, hup, hcounters⟩ := step_down hstep
  have hdown := (Downlink.step_move hs).isDown
  have hzero : ∀ adds : Bump → Bool, (∀ b, b.isDown = true → adds b = false) →
      bumps.countP adds = 0 := by
    intro adds hadds
    refine List.countP_eq_zero.mpr fun b hb => ?_
    simp [hadds b (hdown b hb)]
  constructor
  · intro cls slot hslot
    rw [hup, hcounters, RelayCounters.delivered_bumpAll hslot, h.delivered cls slot hslot,
      hzero _ fun b hb => by cases b <;> first | rfl | cases hb]
    rfl
  · intro cls slot hslot
    rw [hup, hcounters, RelayCounters.discarded_bumpAll hslot, h.discarded cls slot hslot,
      hzero _ fun b hb => by cases b <;> first | rfl | cases hb]
    rfl
  · intro cls slot family hslot hnot
    rw [hcounters, RelayCounters.family_bumpAll hslot, h.warranted cls slot family hslot hnot,
      hzero _ fun b hb => by cases family <;> cases b <;> first | rfl | cases hb]

/-- The books of the classes are right in every state of every run. -/
theorem classBooks (h : (system S).Reachable System.anyStep s) : s.ClassBooks S := by
  apply h.invariant
  · rintro s ⟨siteUp, rfl⟩
    refine ⟨fun cls slot _ => ?_, fun cls slot _ => ?_, fun cls slot family _ _ => ?_⟩
    · simp [start, Uplink.start, RelayCounters.delivered]
    · simp [start, Uplink.start, RelayCounters.discarded]
    · cases family <;> rfl
  · intro s a s' hreach hI _ hstep
    cases a with
    | up a =>
      have hup := reachable_up (R := System.anyStep) (hreach.mono fun _ _ _ _ _ => trivial)
      exact hI.up (Uplink.books hup) hstep
    | down a => exact hI.down hstep

end RelayIo

/-- The counters of a class are exact, between any two steps of any run of the relay with its
metrics; a step goes from one await to the next, and the one that ends the way of a message counts
it, too.  Of the messages of the pumps of the class, those delivered to the site are what is counted
as relayed live or replayed, and those discarded are what is counted as dropped.  A drop is counted
as disabled only if the class is disabled, as rate-capped only if it has a cap, and an event as
disconnected only if events are not buffered.  And the metrics never report more messages of the
class than have been delivered, nor more than have been discarded. -/
theorem class_counters_exact [Inhabited ρ] (S : Setup Bytes ρ) {s : ObservedRelay Bytes}
    (h : (ObservedRelay.system S).Reachable System.anyStep s) {cls : UnsClass} {slot : Fin 7}
    (hslot : classIndex cls = some slot) :
    (s.io.up.delivered.countP (fun m => m.cls = cls) =
        s.io.counters.uplinked slot + (if cls = .evt then s.io.counters.evtReplayed else 0) ∧
      s.io.up.discarded.countP (fun m => m.cls = cls) =
        s.io.counters.droppedDisabled slot + s.io.counters.droppedRate slot +
          s.io.counters.droppedDisconnected slot +
          (if cls = .evt then s.io.counters.evtBufferDropped else 0)) ∧
    (S.policy.classEnabled cls = true → s.io.counters.droppedDisabled slot = 0) ∧
    (S.policy.hasRateCap cls = false → s.io.counters.droppedRate slot = 0) ∧
    (cls = .evt → 0 < S.policy.evtBufferMax → s.io.counters.droppedDisconnected slot = 0) ∧
    emittedSum s.metrics.ticks "relay_uplinked" cls.token ≤
      s.io.up.delivered.countP (fun m => m.cls = cls) ∧
    emittedSum s.metrics.ticks "relay_dropped_disabled" cls.token +
        emittedSum s.metrics.ticks "relay_dropped_rate" cls.token +
        emittedSum s.metrics.ticks "relay_dropped_disconnected" cls.token ≤
      s.io.up.discarded.countP (fun m => m.cls = cls) := by
  have hbooks := RelayIo.classBooks (ObservedRelay.reachable_io (S := S)
    (R := System.anyStep) (h.mono fun _ _ _ _ _ => trivial))
  have hdelivered := hbooks.delivered cls slot hslot
  have hdiscarded := hbooks.discarded cls slot hslot
  have hemitted : ∀ family : ClassFamily,
      emittedSum s.metrics.ticks family.metric cls.token ≤ s.io.counters.family family slot := by
    intro family
    have hle := ObservedRelay.emittedSum_le_load h (.perClass family slot)
    rwa [Counter.measure, policyClass_of_classIndex hslot] at hle
  refine ⟨⟨hdelivered, hdiscarded⟩, fun henabled => ?_, fun hcap => ?_, fun hevt hmax => ?_, ?_, ?_⟩
  · exact hbooks.warranted cls slot .droppedDisabled hslot (by
      simp [Setup.Warrants, ClassFamily.bump, henabled])
  · exact hbooks.warranted cls slot .droppedRate hslot (by
      simp [Setup.Warrants, ClassFamily.bump, hcap])
  · exact hbooks.warranted cls slot .droppedDisconnected hslot (by
      simp [Setup.Warrants, ClassFamily.bump, hevt, hmax.ne'])
  · rw [hdelivered]
    exact (hemitted .uplinked).trans (Nat.le_add_right _ _)
  · rw [hdiscarded]
    refine le_trans ?_ (Nat.le_add_right _ _)
    exact Nat.add_le_add (Nat.add_le_add (hemitted .droppedDisabled) (hemitted .droppedRate))
      (hemitted .droppedDisconnected)

/-- After the sample run two of the three `state` messages are delivered, counted and reported. -/
theorem class_counters_exact_gw01 : ∃ s : ObservedRelay (Message Unit),
    s.io.up.delivered.countP (fun m => m.cls = .state) = 2 ∧ s.io.counters.uplinked 0 = 2 ∧
      s.io.counters.droppedDisabled 0 = 0 ∧
      emittedSum s.metrics.ticks "relay_uplinked" "state" ≤ 2 := by
  obtain ⟨s, hs, hobs⟩ := System.exists_reachable_of_exec
    (M := ObservedRelay.system Setup.gw01) (fun _ _ => true)
    (P := System.anyStep) (fun _ _ _ => trivial) (.init ⟨true, rfl⟩)
    (relayedRun.map (fun a => .io (.up a)) ++ tickedRun.map .metrics)
    (fun s => s.io.up.delivered.countP fun m => m.cls = .state) (x := 2) (by decide +kernel)
  have hslot : classIndex .state = some 0 := rfl
  obtain ⟨⟨hdelivered, -⟩, hdisabled, -, -, hemitted, -⟩ :=
    class_counters_exact Setup.gw01 hs hslot
  refine ⟨s, hobs, ?_, hdisabled (by decide +kernel), ?_⟩
  · rw [hobs] at hdelivered
    simpa using hdelivered.symm
  · rw [hobs] at hemitted
    exact hemitted

end UnsBridge
