import UnsBridge.ClassCounts
import UnsBridge.RateCap

/-!
# The rate at which the site gets messages

`relay_up` reads the clock while it holds the policy lock, so that the times of its admissions do
not decrease.  `ClockedRelay` is the relay with a log of these admissions.  Its log is one of a
policy under calls in order, `ClockedRelay.reachable_watch`, whatever the tasks do in between, and
the live publishes of a class are among the forwarded admissions of the class.  `site_rate_limited`
concludes what the rate cap of a class says about the messages that the site gets, and about those
it does not get.  The class of a message is that of the pump that received it, and the buckets count
in exact rationals, without the rounding of floating-point numbers.
-/

namespace UnsBridge

open TokenBucketLaw Transition

variable {Bytes ρ : Type}

/-! ### Refusals -/

/-- The times at which messages of a class were forwarded, in a log of admissions. -/
def forwardTimes (admits : List (UnsClass × Instant × UplinkVerdict)) (cls : UnsClass) :
    List Instant :=
  (admits.filter fun e => e.1 = cls ∧ e.2.2 = .forward).map fun e => e.2.1

/-- A message of a class was dropped for the cap only where one more would have been too many. -/
def Refused (cls : UnsClass) (rate burst : ℕ)
    (admits : List (UnsClass × Instant × UplinkVerdict)) : Prop :=
  ∀ earlier now later, admits = earlier ++ (cls, now, .dropRateCapped) :: later →
    ∃ since ≤ now, burst + (supply rate now - supply rate since) <
      (window (forwardTimes earlier cls) since now : ℚ) + 1

/-- Only a call that reaches the cap is dropped for it. -/
theorem UplinkPolicy.reachesCap_of_dropRateCapped {ι : Type} {p : UplinkPolicy ι} {cls : UnsClass}
    {i : Fin 7} {connected : Bool} {now : Instant} (hi : classIndex cls = some i)
    (h : (p.admitVerdict cls connected now).1 = .dropRateCapped) : p.ReachesCap cls connected := by
  by_cases henabled : (p.classes i).enabled = true
  · cases connected with
    | false =>
      by_cases hbuf : (cls = .evt && 0 < p.evtBufferMax) = true <;>
        simp [admitVerdict, hi, henabled, hbuf] at h
    | true =>
      refine ⟨by simpa [classEnabled, hi] using henabled, rfl, ?_⟩
      rintro rfl
      by_contra hbuffered
      push Not at hbuffered
      simp [admitVerdict, hi, henabled, Nat.pos_of_ne_zero hbuffered.1, hbuffered.2] at h
  · simp [admitVerdict, hi, henabled] at h

namespace RateWatch

variable {ι : Type} {cfg : UplinkConfig} {cls : UnsClass} {i : Fin 7} {rate burst : ℕ}
  {w : RateWatch ι} {p : UplinkPolicy ι} {admits : List (UnsClass × Instant × UplinkVerdict)}

/-- One more admission, where the earlier ones were refused rightly. -/
theorem refused_append {e : UnsClass × Instant × UplinkVerdict}
    (h : Refused cls rate burst admits)
    (he : e.1 = cls → e.2.2 = .dropRateCapped → ∃ since ≤ e.2.1,
      burst + (supply rate e.2.1 - supply rate since) <
        (window (forwardTimes admits cls) since e.2.1 : ℚ) + 1) :
    Refused cls rate burst (admits ++ [e]) := by
  intro earlier now later hsplit
  induction later using List.reverseRecOn with
  | nil =>
    obtain ⟨rfl, rfl⟩ := List.append_singleton_inj.mp hsplit
    exact he rfl rfl
  | append_singleton later last =>
    rw [← List.cons_append, ← List.append_assoc] at hsplit
    exact h earlier now later (List.append_singleton_inj.mp hsplit).1

/-- In every run in order, messages of a class with a cap are refused rightly. -/
theorem refused (hi : classIndex cls = some i) (hcap : cfg.rateCap cls = some (rate, burst))
    (h : (system ι cfg).Reachable InOrder w) : Refused cls rate burst w.admits := by
  apply h.invariant (I := fun w => Refused cls rate burst w.admits)
  · rintro w rfl earlier now later hsplit
    simp at hsplit
  · rintro w a w' hreach hrefused horder hstep
    obtain rfl := Option.some.inj hstep
    cases a with
    | admitVerdict cls' connected now =>
      have hadmits : (w.step (.admitVerdict cls' connected now)).admits =
          w.admits ++ [(cls', now, (w.policy.admitVerdict cls' connected now).1)] := rfl
      rw [hadmits]
      refine refused_append hrefused fun hcls hverdict => ?_
      obtain rfl : cls' = cls := hcls
      replace hverdict : (w.policy.admitVerdict cls' connected now).1 = .dropRateCapped := hverdict
      have hreaches := UplinkPolicy.reachesCap_of_dropRateCapped hi hverdict
      have hforward := ((metered hi hcap hreach).reaches hi (horder _ _ _ rfl) hreaches).1
      have hnot : (w.policy.admitVerdict cls' connected now).1 ≠ .forward := by simp [hverdict]
      rw [ne_eq, hforward] at hnot
      push Not at hnot
      exact hnot
    | _ => exact hrefused

/-- A push leaves the log as it is. -/
theorem reachable_pushEvt (h : (system ι cfg).Reachable InOrder ⟨p, admits⟩) (item : ι) :
    (system ι cfg).Reachable InOrder ⟨(p.pushEvt item).2, admits⟩ :=
  h.step (a := .pushEvt item) (fun _ _ _ ha => by cases ha) rfl

/-- So does a pop. -/
theorem reachable_popEvt (h : (system ι cfg).Reachable InOrder ⟨p, admits⟩) :
    (system ι cfg).Reachable InOrder ⟨p.popEvt.2, admits⟩ :=
  h.step (a := .popEvt) (fun _ _ _ ha => by cases ha) rfl

/-- So does a requeue. -/
theorem reachable_requeueEvtFront (h : (system ι cfg).Reachable InOrder ⟨p, admits⟩) (item : ι) :
    (system ι cfg).Reachable InOrder ⟨(p.requeueEvtFront item).2, admits⟩ :=
  h.step (a := .requeueEvtFront item) (fun _ _ _ ha => by cases ha) rfl

/-- An admission joins the log. -/
theorem reachable_admitVerdict (h : (system ι cfg).Reachable InOrder ⟨p, admits⟩)
    (cls : UnsClass) (connected : Bool) {now : Instant} (horder : ∀ e ∈ admits, e.2.1 ≤ now) :
    (system ι cfg).Reachable InOrder ⟨(p.admitVerdict cls connected now).2,
      admits ++ [(cls, now, (p.admitVerdict cls connected now).1)]⟩ := by
  refine h.step (a := .admitVerdict cls connected now) ?_ rfl
  rintro _ _ _ ha
  cases ha
  exact horder

end RateWatch

/-! ### The relay with its log -/

/-- The admission that a step makes: the class, the time and the verdict. -/
def Uplink.admission (s : Uplink Bytes) :
    UplinkAction Bytes → List (UnsClass × Instant × UplinkVerdict)
  | .relayUp i now =>
    match s.pumps i with
    | .handed m => [(m.cls, now, (s.policy.admitVerdict m.cls s.siteUp now).1)]
    | _ => []
  | _ => []

namespace Uplink

variable {S : Setup Bytes ρ} {s s' : Uplink Bytes} {a : UplinkAction Bytes} {bumps : List Bump}
  {cfg : UplinkConfig} {admits : List (UnsClass × Instant × UplinkVerdict)}

/-- A step that pushes admits its message first, if it has not been admitted before. -/
theorem Pushes.reachable {i : ℕ} {m : Forwarded Bytes} (hpush : s.Pushes a i m)
    (h : (RateWatch.system (Forwarded Bytes) cfg).Reachable RateWatch.InOrder ⟨s.policy, admits⟩)
    (horder : ∀ e ∈ admits, ∀ e' ∈ s.admission a, e.2.1 ≤ e'.2.1) :
    (RateWatch.system (Forwarded Bytes) cfg).Reachable RateWatch.InOrder
      ⟨s.policy, admits ++ s.admission a⟩ := by
  cases hpush with
  | admitted i now m hpump hverdict =>
    simp only [admission, hpump, List.mem_singleton, forall_eq] at horder ⊢
    have hadmitted := RateWatch.reachable_admitVerdict h m.cls s.siteUp horder
    rw [UplinkPolicy.admitVerdict_eq hverdict (by simp) (by simp)] at hadmitted
    rw [hverdict]
    exact hadmitted
  | fail =>
    rw [show s.admission (.published i .failed) = [] from rfl, List.append_nil]
    exact h

/-- The steps of the uplink tasks call the policy in order, if the clock does not go back. -/
theorem reachable_step [Inhabited ρ] (hstep : s.step S a = some (s', bumps))
    (h : (RateWatch.system (Forwarded Bytes) cfg).Reachable RateWatch.InOrder ⟨s.policy, admits⟩)
    (horder : ∀ e ∈ admits, ∀ e' ∈ s.admission a, e.2.1 ≤ e'.2.1) :
    (RateWatch.system (Forwarded Bytes) cfg).Reachable RateWatch.InOrder
      ⟨s'.policy, admits ++ s.admission a⟩ := by
  have hadmitted : ∀ {i now} {m : Forwarded Bytes}, a = .relayUp i now → s.pumps i = .handed m →
      (RateWatch.system (Forwarded Bytes) cfg).Reachable RateWatch.InOrder
        ⟨(s.policy.admitVerdict m.cls s.siteUp now).2, admits ++ s.admission a⟩ := by
    rintro i now m rfl hpump
    simp only [admission, hpump, List.mem_singleton, forall_eq] at horder ⊢
    exact RateWatch.reachable_admitVerdict h m.cls s.siteUp horder
  -- most steps make no admission
  have hquiet : s.admission a = [] →
      (RateWatch.system (Forwarded Bytes) cfg).Reachable RateWatch.InOrder ⟨s'.policy, admits⟩ →
        (RateWatch.system (Forwarded Bytes) cfg).Reachable RateWatch.InOrder
          ⟨s'.policy, admits ++ s.admission a⟩ := by
    intro hnone hreach
    rw [hnone, List.append_nil]
    exact hreach
  cases step_move hstep with
  | goLive i now m policy hpump hadmits | capped i now m policy hpump hadmits =>
    have hpolicy := hadmitted rfl hpump
    rw [hadmits] at hpolicy
    exact hpolicy
  | disabled i now m hpump hverdict | disconnected i now m hpump hverdict =>
    have hpolicy := hadmitted rfl hpump
    rwa [UplinkPolicy.admitVerdict_eq hverdict (by simp) (by simp)] at hpolicy
  | store a i m hpush hroom =>
    have hpushed := RateWatch.reachable_pushEvt (hpush.reachable h horder) m
    rwa [s.policy.pushEvt_of_room m hroom] at hpushed
  | evict a i m oldest rest hpush hon hfull hbuffer =>
    have hpushed := RateWatch.reachable_pushEvt (hpush.reachable h horder) m
    rwa [s.policy.pushEvt_of_full m hon hfull, hbuffer] at hpushed
  | reject a i m hpush => exact hpush.reachable h horder
  | pop m rest hphase hbuffer =>
    have hpopped := RateWatch.reachable_popEvt h
    rw [UplinkPolicy.popEvt, hbuffer] at hpopped
    exact hquiet rfl hpopped
  | requeue m hphase hroom =>
    have hrequeued := RateWatch.reachable_requeueEvtFront h m
    rw [UplinkPolicy.requeueEvtFront, if_neg (Nat.not_le.mpr hroom)] at hrequeued
    exact hquiet rfl hrequeued
  | _ => exact hquiet rfl h

end Uplink

/-! ### What a step counts -/

/-- What the increments of a step do to the counters of live publishes and of drops for the cap. -/
theorem RelayCounters.rate_bumpAll {cls : UnsClass} {slot : Fin 7}
    (hslot : classIndex cls = some slot) (c : RelayCounters) (bumps : List Bump) :
    (c.bumpAll bumps).uplinked slot =
        c.uplinked slot + bumps.countP (fun b => b = .uplinked cls) ∧
      (c.bumpAll bumps).droppedRate slot =
        c.droppedRate slot + bumps.countP fun b => b = .droppedRate cls :=
  ⟨family_bumpAll hslot c .uplinked bumps, family_bumpAll hslot c .droppedRate bumps⟩

/-- Whether a pump publishes a message of a class. -/
def UplinkPhase.live (cls : UnsClass) : UplinkPhase Bytes → ℕ
  | .publishing m => if m.cls = cls then 1 else 0
  | _ => 0

namespace Uplink

/-- The number of messages of a class that the pumps publish. -/
def live (S : Setup Bytes ρ) (s : Uplink Bytes) (cls : UnsClass) : ℕ :=
  ∑ i ∈ Finset.range S.deviceSubscriptions.length, (s.pumps i).live cls

/-- A step goes on with what has been admitted, and counts it: what it counts as relayed live was in
publish before, and what it counts as dropped for the cap is what it refuses. -/
structure Counted (S : Setup Bytes ρ) (s : Uplink Bytes) (a : UplinkAction Bytes)
    (s' : Uplink Bytes) (bumps : List Bump) (cls : UnsClass) : Prop where
  live : bumps.countP (fun b => b = .uplinked cls) + s'.live S cls ≤
    s.live S cls + (forwardTimes (s.admission a) cls).length
  refused : bumps.countP (fun b => b = .droppedRate cls) =
    (s.admission a).countP fun e => e.1 = cls ∧ e.2.2 = .dropRateCapped

variable {S : Setup Bytes ρ} {s s' : Uplink Bytes} {a : UplinkAction Bytes} {bumps : List Bump}
  {cls : UnsClass}

/-- A pump goes on. -/
theorem live_of_setPump {i : ℕ} {phase : UplinkPhase Bytes} (hi : i < S.deviceSubscriptions.length)
    (hpumps : s'.pumps = (s.setPump i phase).pumps) (cls : UnsClass) :
    s'.live S cls + (s.pumps i).live cls = s.live S cls + phase.live cls := by
  have hsum := Collections.sum_update _ (fun _ => UplinkPhase.live cls) s.pumps
    (Finset.mem_range.mpr hi) phase
  unfold live
  rw [hpumps]
  exact hsum

/-- A step that leaves the pumps alone, and counts neither. -/
theorem Counted.quiet (hpumps : s'.pumps = s.pumps) (hadmission : s.admission a = [])
    (hbumps : ∀ b ∈ bumps, b ≠ .uplinked cls ∧ b ≠ .droppedRate cls) :
    Counted S s a s' bumps cls := by
  have hlive : s'.live S cls = s.live S cls := by simp only [Uplink.live, hpumps]
  have hnone : ∀ b₀ : Bump, (∀ b ∈ bumps, b ≠ b₀) → bumps.countP (fun b => b = b₀) = 0 :=
    fun b₀ hne => List.countP_eq_zero.mpr fun b hb => by simpa using hne b hb
  constructor
  · rw [hnone _ fun b hb => (hbumps b hb).1, hlive]
    omega
  · rw [hnone _ fun b hb => (hbumps b hb).2, hadmission]
    rfl

/-- A step after which a pump does not publish. -/
theorem Counted.settled {i : ℕ} {phase : UplinkPhase Bytes} (hi : i < S.deviceSubscriptions.length)
    (hpumps : s'.pumps = (s.setPump i phase).pumps) (hphase : phase.live cls = 0)
    (hlive : bumps.countP (fun b => b = .uplinked cls) ≤ (s.pumps i).live cls)
    (hrefused : bumps.countP (fun b => b = .droppedRate cls) =
      (s.admission a).countP fun e => e.1 = cls ∧ e.2.2 = .dropRateCapped) :
    Counted S s a s' bumps cls := by
  have hpump := live_of_setPump hi hpumps cls
  exact ⟨by omega, hrefused⟩

/-- A step that pushes refuses nothing for the cap. -/
theorem Pushes.not_capped {i : ℕ} {m : Forwarded Bytes} (h : s.Pushes a i m) :
    (s.admission a).countP (fun e => e.1 = cls ∧ e.2.2 = .dropRateCapped) = 0 := by
  cases h with
  | admitted i now m hpump hverdict => simp [admission, hpump, hverdict]
  | fail => rfl

variable [Inhabited ρ]

/-- Every step counts what it goes on with. -/
theorem counted_step (hbooks : s.Books S) (h : s.step S a = some (s', bumps)) (cls : UnsClass) :
    Counted S s a s' bumps cls := by
  have hlt : ∀ {i m}, (s.pumps i).load = [m] → i < S.deviceSubscriptions.length := by
    intro i m hload
    exact Setup.lt_of_pumpClass (hbooks.placed.pump i m (by simp [flow, hload])).2
  have hpushed : ∀ {i m}, s.Pushes a i m → (s.pumps i).load = [m] := by
    rintro i m (⟨_, _, _, hpump, -⟩ | ⟨_, _, hpump, -⟩) <;> rw [hpump] <;> rfl
  cases step_move h with
  | goLive i now m policy hpump hadmits =>
    have hlive : ({ s with policy }.setPump i (.publishing m)).live S cls +
        (s.pumps i).live cls = s.live S cls + (UplinkPhase.publishing m).live cls :=
      live_of_setPump (hlt (by rw [hpump]; rfl)) rfl cls
    have hbefore : (s.pumps i).live cls = 0 := by rw [hpump]; rfl
    have hadmission : s.admission (.relayUp i now) = [(m.cls, now, .forward)] := by
      simp [admission, hpump, hadmits]
    constructor
    · rw [hadmission]
      by_cases hcls : m.cls = cls <;> simp [hcls, UplinkPhase.live, forwardTimes] at hlive ⊢ <;>
        omega
    · simp [hadmission]
  | capped i now m policy hpump hadmits =>
    exact .settled (hlt (by rw [hpump]; rfl)) rfl rfl (by simp)
      (by simp [admission, hpump, hadmits, List.countP_singleton])
  | disabled i now m hpump hverdict | disconnected i now m hpump hverdict =>
    exact .settled (hlt (by rw [hpump]; rfl)) rfl rfl (by simp)
      (by simp [admission, hpump, hverdict])
  | store a i m hpush | evict a i m oldest rest hpush | reject a i m hpush =>
    exact .settled (hlt (hpushed hpush)) rfl rfl (by simp) (by rw [hpush.not_capped]; simp)
  | deliver i m hpump =>
    have hbefore : (s.pumps i).live cls = if m.cls = cls then 1 else 0 := by rw [hpump]; rfl
    exact .settled (hlt (by rw [hpump]; rfl)) rfl rfl
      (by simp [hbefore, List.countP_singleton]) rfl
  | lose i m hpump => exact .settled (hlt (by rw [hpump]; rfl)) rfl rfl (by simp) rfl
  | hand i cls c bus bytes m hpump hpumpClass =>
    exact .settled (Setup.lt_of_pumpClass hpumpClass) rfl rfl (by simp) rfl
  | _ => exact .quiet rfl rfl (by simp)

end Uplink

/-- The relay and its admissions so far. -/
structure ClockedRelay (Bytes : Type) where
  io : RelayIo Bytes
  admits : List (UnsClass × Instant × UplinkVerdict)

namespace ClockedRelay

/-- The admission that a step of the relay makes. -/
def admission (s : ClockedRelay Bytes) :
    RelayIoAction Bytes → List (UnsClass × Instant × UplinkVerdict)
  | .up a => s.io.up.admission a
  | .down _ => []

/-- One step. -/
def step [Inhabited ρ] (S : Setup Bytes ρ) (s : ClockedRelay Bytes) (a : RelayIoAction Bytes) :
    Option (ClockedRelay Bytes) :=
  (s.io.step S a).map fun io => { io, admits := s.admits ++ s.admission a }

/-- The relay with its log as a transition system. -/
def system [Inhabited ρ] (S : Setup Bytes ρ) :
    System (ClockedRelay Bytes) (RelayIoAction Bytes) where
  init s := ∃ siteUp, s = { io := .start S siteUp, admits := [] }
  step s a := s.step S a

/-- The clock does not go back. -/
def InOrder (s : ClockedRelay Bytes) (a : RelayIoAction Bytes) : Prop :=
  ∀ e ∈ s.admits, ∀ e' ∈ s.admission a, e.2.1 ≤ e'.2.1

/-- The policy of the relay, with the log. -/
def watch (s : ClockedRelay Bytes) : RateWatch (Forwarded Bytes) where
  policy := s.io.up.policy
  admits := s.admits

variable [Inhabited ρ] {S : Setup Bytes ρ} {s s' : ClockedRelay Bytes} {cls : UnsClass}
  {slot : Fin 7}

/-- A step of the relay with its log. -/
theorem step_eq_some {a : RelayIoAction Bytes} (h : s.step S a = some s') :
    s.io.step S a = some s'.io ∧ s'.admits = s.admits ++ s.admission a := by
  obtain ⟨io, hio, rfl⟩ := Option.map_eq_some_iff.mp h
  exact ⟨hio, rfl⟩

/-- The relay runs as it does without the log. -/
theorem reachable_io (h : (system S).Reachable InOrder s) :
    (RelayIo.system S).Reachable System.anyStep s.io := by
  apply h.map (R := System.anyStep) ClockedRelay.io some
  · rintro s ⟨siteUp, rfl⟩
    exact ⟨siteUp, rfl⟩
  · intro s a s' _ hstep
    exact ⟨trivial, (step_eq_some hstep).1⟩

/-- The policy of the relay is called in order, and the log is the one of its calls. -/
theorem reachable_watch (h : (system S).Reachable InOrder s) :
    (RateWatch.system (Forwarded Bytes) S.uplink).Reachable RateWatch.InOrder s.watch := by
  apply h.invariant (I := fun s => (RateWatch.system (Forwarded Bytes) S.uplink).Reachable
    RateWatch.InOrder s.watch)
  · rintro s ⟨siteUp, rfl⟩
    exact .init rfl
  · rintro s a s' - hwatch horder hstep
    obtain ⟨hio, hadmits⟩ := step_eq_some hstep
    rw [watch, hadmits]
    cases a with
    | up a =>
      obtain ⟨bumps, hup, -, -⟩ := RelayIo.step_up hio
      exact Uplink.reachable_step hup hwatch horder
    | down a =>
      obtain ⟨bumps, -, hup, -⟩ := RelayIo.step_down hio
      rw [hup, admission, List.append_nil]
      exact hwatch

/-- The counters of a class say what has become of its admissions. -/
structure Counted (S : Setup Bytes ρ) (cls : UnsClass) (slot : Fin 7) (s : ClockedRelay Bytes) :
    Prop where
  live : s.io.counters.uplinked slot + s.io.up.live S cls ≤ (forwardTimes s.admits cls).length
  refused : s.io.counters.droppedRate slot =
    s.admits.countP fun e => e.1 = cls ∧ e.2.2 = .dropRateCapped

/-- A step of the uplink tasks. -/
theorem Counted.up (hslot : classIndex cls = some slot) (h : s.Counted S cls slot)
    (hbooks : s.io.up.Books S) {a : UplinkAction Bytes} (hstep : s.step S (.up a) = some s') :
    s'.Counted S cls slot := by
  obtain ⟨hio, hadmits⟩ := step_eq_some hstep
  obtain ⟨bumps, hup, -, hcounters⟩ := RelayIo.step_up hio
  obtain ⟨huplinked, hdropped⟩ := RelayCounters.rate_bumpAll hslot s.io.counters bumps
  rw [← hcounters] at huplinked hdropped
  have hstepped := Uplink.counted_step hbooks hup cls
  constructor
  · have hlive := hstepped.live
    have hbefore := h.live
    have htimes : (forwardTimes s'.admits cls).length =
        (forwardTimes s.admits cls).length +
          (forwardTimes (s.io.up.admission a) cls).length := by
      rw [hadmits, forwardTimes, List.filter_append, List.map_append, List.length_append]
      rfl
    omega
  · rw [hdropped, h.refused, hstepped.refused, hadmits, List.countP_append]
    rfl

/-- A step of the downlink tasks. -/
theorem Counted.down (hslot : classIndex cls = some slot) (h : s.Counted S cls slot)
    {a : DownlinkAction Bytes} (hstep : s.step S (.down a) = some s') :
    s'.Counted S cls slot := by
  obtain ⟨hio, hadmits⟩ := step_eq_some hstep
  obtain ⟨bumps, hdown, hup, hcounters⟩ := RelayIo.step_down hio
  obtain ⟨huplinked, hdropped⟩ := RelayCounters.rate_bumpAll hslot s.io.counters bumps
  have hisDown := (Downlink.step_move hdown).isDown
  have hnone : ∀ b₀ : Bump, b₀.isDown = false → bumps.countP (fun b => b = b₀) = 0 := by
    intro b₀ hb₀
    refine List.countP_eq_zero.mpr fun b hb => ?_
    have hne : b ≠ b₀ := fun heq => by simp [heq ▸ hisDown b hb] at hb₀
    simpa using hne
  rw [← hcounters, hnone _ rfl, Nat.add_zero] at huplinked hdropped
  rw [admission, List.append_nil] at hadmits
  constructor
  · rw [huplinked, hup, hadmits]
    exact h.live
  · rw [hdropped, hadmits]
    exact h.refused

/-- The admissions are counted in every run. -/
theorem counted (hslot : classIndex cls = some slot) (h : (system S).Reachable InOrder s) :
    s.Counted S cls slot := by
  apply h.invariant (I := fun s => s.Counted S cls slot)
  · rintro s ⟨siteUp, rfl⟩
    constructor
    · simp [RelayIo.start, Uplink.start, Uplink.live, UplinkPhase.live]
    · rfl
  · rintro s a s' hreach hcounted - hstep
    cases a with
    | up a =>
      have hbooks := Uplink.books (RelayIo.reachable_up (R := System.anyStep)
        ((reachable_io hreach).mono fun _ _ _ _ _ => trivial))
      exact hcounted.up hslot hbooks hstep
    | down a => exact hcounted.down hslot hstep

end ClockedRelay

/-- The rate cap of a class holds for the site, in every run of the relay in which the clock does
not go back, with token buckets in exact rationals.  The messages of a class are those of its pumps.
No window has more admissions of live publishes of the class than the burst and what the rate
supplies; what is counted as relayed live is among them, so that it keeps the same bound over any
time that has all admissions in it.  What is counted as dropped for the cap is what was refused, and
each refused message would have been one too many in some window that ends with it. -/
theorem site_rate_limited [Inhabited ρ] (S : Setup Bytes ρ) {cls : UnsClass} {slot : Fin 7}
    {rate burst : ℕ} (hslot : classIndex cls = some slot)
    (hcap : S.uplink.rateCap cls = some (rate, burst)) {s : ClockedRelay Bytes}
    (h : (ClockedRelay.system S).Reachable ClockedRelay.InOrder s) :
    (∀ t t' : Instant, t ≤ t' → (window (forwardTimes s.admits cls) t t' : ℚ) ≤
      burst + rate * ((t' - t : ℚ) / 1000000000)) ∧
    (∀ t t' : Instant, t ≤ t' → (∀ e ∈ s.admits, t ≤ e.2.1 ∧ e.2.1 ≤ t') →
      (s.io.counters.uplinked slot : ℚ) ≤ burst + rate * ((t' - t : ℚ) / 1000000000)) ∧
    (s.io.counters.droppedRate slot =
      s.admits.countP fun e => e.1 = cls ∧ e.2.2 = .dropRateCapped) ∧
    ∀ earlier (now : Instant) later, s.admits = earlier ++ (cls, now, .dropRateCapped) :: later →
      ∃ since : Instant, since ≤ now ∧ burst + rate * ((now - since : ℚ) / 1000000000) <
        (window (forwardTimes earlier cls) since now : ℚ) + 1 := by
  have hsupply : ∀ s t, supply rate t - supply rate s = rate * ((t - s : ℚ) / 1000000000) := by
    intro s t
    unfold supply
    ring
  have hwatch := ClockedRelay.reachable_watch h
  have hcounted := ClockedRelay.counted hslot h
  have hconforms := (RateWatch.metered hslot hcap hwatch).conforms
  simp only [← hsupply]
  refine ⟨hconforms, fun t t' htt' hall => ?_, hcounted.refused,
    RateWatch.refused hslot hcap hwatch⟩
  have hwindow : window (forwardTimes s.admits cls) t t' = (forwardTimes s.admits cls).length := by
    refine List.countP_eq_length.mpr fun u hu => ?_
    obtain ⟨e, he, rfl⟩ := List.mem_map.mp hu
    simpa using hall e (List.mem_filter.mp he).1
  have hlive : s.io.counters.uplinked slot ≤ (forwardTimes s.admits cls).length :=
    (Nat.le_add_right _ _).trans hcounted.live
  calc (s.io.counters.uplinked slot : ℚ)
      ≤ window (forwardTimes s.admits cls) t t' := by exact_mod_cast hwindow ▸ hlive
    _ ≤ burst + (supply rate t' - supply rate t) := hconforms t t' htt'

/-- The sample bridge with a cap on its events. -/
def Setup.capped : Setup (Message Unit) Unit := Setup.gw01.withUplink twoPerSecond

/-- Three events come in at the same instant. -/
def cappedRun : List (UplinkAction (Message Unit)) :=
  List.replicate 3 (.publish "ecv1/gw-01/adapter/main/evt/alarm" (.sample none)) ++
    [.recv 4, .relayUp 4 0, .published 4 .ok, .recv 4, .relayUp 4 0, .published 4 .ok, .recv 4,
      .relayUp 4 0]

/-- Whether the clock does not go back. -/
def ClockedRelay.inOrder (s : ClockedRelay Bytes) (a : RelayIoAction Bytes) : Bool :=
  s.admits.all fun e => (s.admission a).all fun e' => e.2.1 ≤ e'.2.1

/-- A step that passes the test is in order. -/
theorem ClockedRelay.inOrder_of_test (s : ClockedRelay Bytes) (a : RelayIoAction Bytes)
    (h : s.inOrder a = true) : InOrder s a := by
  intro e he e' he'
  have hall := List.all_eq_true.mp (List.all_eq_true.mp h e he) e' he'
  simpa using hall

/-- Two of the events are relayed, and the third one is dropped, since it would have been one more
than the burst. -/
theorem site_rate_limited_capped : ∃ s : ClockedRelay (Message Unit),
    forwardTimes s.admits .evt = [0, 0] ∧ (s.io.counters.uplinked 2 : ℚ) ≤ 2 ∧
      s.io.counters.droppedRate 2 = 1 := by
  obtain ⟨s, hs, hobs⟩ := System.exists_reachable_of_exec (M := ClockedRelay.system Setup.capped)
    ClockedRelay.inOrder ClockedRelay.inOrder_of_test (.init ⟨true, rfl⟩) (cappedRun.map .up)
    (fun s => s.admits)
    (x := [(.evt, 0, .forward), (.evt, 0, .forward), (.evt, 0, .dropRateCapped)])
    (by decide +kernel)
  have hcap : Setup.capped.uplink.rateCap .evt = some (2, 2) := by decide +kernel
  obtain ⟨-, huplinked, hdropped, -⟩ := site_rate_limited Setup.capped rfl hcap hs
  refine ⟨s, by rw [hobs]; rfl, ?_, ?_⟩
  · simpa [hobs] using huplinked 0 0 le_rfl
  · rw [hdropped, hobs]
    rfl

end UnsBridge
