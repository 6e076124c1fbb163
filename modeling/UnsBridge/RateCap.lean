import Mathlib.Data.Int.ConditionallyCompleteOrder
import UnsBridge.Lib.TokenBucket
import UnsBridge.Lib.Transition
import UnsBridge.Policy

/-!
# The rate cap of a class

`RateWatch` is a policy with a log of its admissions, driven by any calls of `admit`, `pushEvt`,
`popEvt` and `requeueEvtFront` whose times do not decrease.  The bucket of a class keeps the level
of the token bucket law over the admissions of that class which were forwarded, whatever is called
in between, so that `admit` forwards exactly what the law allows, `rate_cap_law`.
-/

namespace UnsBridge

open TokenBucketLaw Transition

/-- The rate and the burst that the configuration gives to a class. -/
def UplinkConfig.rateCap (cfg : UplinkConfig) (cls : UnsClass) : Option (ℕ × ℕ) :=
  (cfg.classes.lookup cls.token).bind fun policy => policy.maxRatePerSec.map fun rate =>
    (rate, policy.burst.getD (min (rate * 2) (2 ^ 32 - 1)))

/-- What a rate supplies up to an instant. -/
def supply (rate : ℕ) (t : Instant) : ℚ := rate * ((t : ℚ) / 1000000000)

/-- A rate supplies more and more. -/
theorem supply_monotone (rate : ℕ) : Monotone (supply rate) := by
  intro s t hst
  have hle : (s : ℚ) ≤ t := Int.cast_le.mpr hst
  unfold supply
  gcongr

/-! ### The bucket of a class -/

namespace TokenBucket

variable {b : TokenBucket} {rate burst : ℕ} {g : List Instant} {now : Instant}

/-- The bucket has the level of the law over the given grants, at its last refill. -/
structure Meters (b : TokenBucket) (rate burst : ℕ) (g : List Instant) : Prop where
  ratePerSec : b.ratePerSec = rate
  capacity : b.capacity = burst
  fresh : b.lastRefill = none → g = [] ∧ b.tokens = burst
  level : ∀ last, b.lastRefill = some last →
    (∀ u ∈ g, u ≤ last) ∧ IsLevel (supply rate) burst g last b.tokens

/-- A new bucket has granted nothing. -/
theorem meters_new (rate burst : ℕ) : (new rate burst).Meters rate burst [] where
  ratePerSec := rfl
  capacity := rfl
  fresh _ := ⟨rfl, rfl⟩
  level last h := by simp [new] at h

/-- The refill of a call brings the bucket to its level. -/
theorem Meters.refill (h : b.Meters rate burst g)
    (hnow : ∀ last, b.lastRefill = some last → last ≤ now) :
    (∀ u ∈ g, u ≤ now) ∧ IsLevel (supply rate) burst g now (b.refill now) := by
  cases hlast : b.lastRefill with
  | none =>
    obtain ⟨rfl, htokens⟩ := h.fresh hlast
    refine ⟨by simp, ?_⟩
    rw [TokenBucket.refill, hlast, htokens]
    exact .full (supply_monotone rate) _ now
  | some last =>
    obtain ⟨hg, hlevel⟩ := h.level last hlast
    have hle := hnow last hlast
    refine ⟨fun u hu => (hg u hu).trans hle, ?_⟩
    have hsupply : ((now - last).toNat : ℚ) / 1000000000 * b.ratePerSec =
        supply rate now - supply rate last := by
      have hcast : ((now - last).toNat : ℚ) = now - last := by
        exact_mod_cast Int.toNat_of_nonneg (sub_nonneg.mpr hle)
      rw [hcast, h.ratePerSec, supply, supply]
      ring
    rw [TokenBucket.refill, hlast]
    simp only [hsupply, h.capacity]
    exact hlevel.refill (supply_monotone rate) hg hle

/-- A call takes a token exactly if the law allows a grant, and grants it then. -/
theorem Meters.tryTake (h : b.Meters rate burst g)
    (hnow : ∀ last, b.lastRefill = some last → last ≤ now) :
    ((b.tryTake now).1 = true ↔
      ∀ s ≤ now, (window g s now : ℚ) + 1 ≤ burst + (supply rate now - supply rate s)) ∧
    (b.tryTake now).2.lastRefill = some now ∧
    (b.tryTake now).2.Meters rate burst (if (b.tryTake now).1 then g ++ [now] else g) := by
  obtain ⟨hg, hlevel⟩ := h.refill hnow
  unfold TokenBucket.tryTake
  by_cases htake : 1 ≤ b.refill now
  · simp only [htake, if_true, true_iff]
    refine ⟨hlevel.one_le_iff.mp htake, trivial, h.ratePerSec, h.capacity, by simp, ?_⟩
    rintro last hlast
    obtain rfl := Option.some.inj hlast
    exact ⟨by simpa [or_imp, forall_and] using hg, hlevel.grant⟩
  · simp only [htake, if_false, false_iff, Bool.false_eq_true]
    refine ⟨fun hall => htake (hlevel.one_le_iff.mpr hall), trivial, h.ratePerSec, h.capacity,
      by simp, ?_⟩
    rintro last hlast
    obtain rfl := Option.some.inj hlast
    exact ⟨hg, hlevel⟩

end TokenBucket

/-! ### Which calls reach the bucket -/

namespace UplinkPolicy

variable {ι : Type} {p : UplinkPolicy ι} {cls : UnsClass} {i : Fin 7} {connected : Bool}

/-- A call of `admit` reaches the rate cap of its class: the class is enabled, the site link is up,
and no buffered event is ahead. -/
structure ReachesCap (p : UplinkPolicy ι) (cls : UnsClass) (connected : Bool) : Prop where
  enabled : p.classEnabled cls = true
  connected : connected = true
  unbuffered : cls = .evt → p.evtBufferMax = 0 ∨ p.evtBuffer = []

/-- A call that reaches the cap is forwarded exactly if it gets a token. -/
theorem admitVerdict_of_reaches (hi : classIndex cls = some i) (h : p.ReachesCap cls connected)
    (now : Instant) : p.admitVerdict cls connected now =
      (if (p.takeToken i now).1 then .forward else .dropRateCapped, (p.takeToken i now).2) := by
  have henabled : (p.classes i).enabled = true := by simpa [classEnabled, hi] using h.enabled
  have hpath : (cls = .evt && 0 < p.evtBufferMax && !p.evtBuffer.isEmpty) = false := by
    by_cases hevt : cls = .evt
    · rcases h.unbuffered hevt with hmax | hempty <;> simp [*]
    · simp [hevt]
  simp [admitVerdict, hi, henabled, h.connected, hpath]

/-- A call that does not reach the cap is not forwarded, and costs nothing. -/
theorem admitVerdict_of_not_reaches (hi : classIndex cls = some i)
    (h : ¬ p.ReachesCap cls connected) (now : Instant) :
    (p.admitVerdict cls connected now).1 ≠ .forward ∧
      (p.admitVerdict cls connected now).2 = p := by
  unfold admitVerdict
  simp only [hi]
  by_cases henabled : (p.classes i).enabled = true
  · cases connected with
    | false =>
      by_cases hbuf : (cls = .evt && 0 < p.evtBufferMax) = true <;> simp [henabled, hbuf]
    | true =>
      by_cases hpath : ((cls = .evt && 0 < p.evtBufferMax) && !p.evtBuffer.isEmpty) = true
      · simp [henabled, hpath]
      · refine absurd ⟨by simpa [classEnabled, hi] using henabled, rfl, fun hevt => ?_⟩ h
        have hempty : 0 < p.evtBufferMax → p.evtBuffer = [] := by simpa [hevt] using hpath
        exact (Nat.eq_zero_or_pos _).imp id hempty
  · simp [henabled]

/-- A call of another class leaves the state of a class alone. -/
theorem admitVerdict_classes_of_ne (hi : classIndex cls ≠ some i) (now : Instant) :
    (p.admitVerdict cls connected now).2.classes i = p.classes i := by
  cases hj : classIndex cls with
  | none => simp [admitVerdict, hj]
  | some j =>
    have hij : i ≠ j := fun heq => hi (heq ▸ hj)
    by_cases hreach : p.ReachesCap cls connected
    · rw [admitVerdict_of_reaches hj hreach, takeToken]
      cases (p.classes j).bucket with
      | none => rfl
      | some bucket => simp [hij]
    · rw [(admitVerdict_of_not_reaches hj hreach now).2]

/-- A token comes from the bucket of the class. -/
theorem takeToken_of_bucket {b : TokenBucket} (hb : (p.classes i).bucket = some b) (now : Instant) :
    (p.takeToken i now).1 = (b.tryTake now).1 ∧
      ((p.takeToken i now).2.classes i).bucket = some (b.tryTake now).2 := by
  simp [takeToken, hb]

/-- The bucket that the configuration sets up. -/
theorem bucket_fromConfig {cfg : UplinkConfig} {rate burst : ℕ} (hi : classIndex cls = some i)
    (hcap : cfg.rateCap cls = some (rate, burst)) :
    ((fromConfig cfg : UplinkPolicy ι).classes i).bucket = some (.new rate burst) := by
  obtain rfl := policyClass_of_classIndex hi
  obtain ⟨policy, hpolicy, hrate⟩ := Option.bind_eq_some_iff.mp hcap
  obtain ⟨rate', hrate', heq⟩ := Option.map_eq_some_iff.mp hrate
  cases heq
  simp [fromConfig, classState, hpolicy, hrate']

end UplinkPolicy

/-! ### Runs of a policy -/

/-- A policy and the admissions so far: the class, the time and the verdict of each. -/
structure RateWatch (ι : Type) where
  policy : UplinkPolicy ι
  admits : List (UnsClass × Instant × UplinkVerdict)

namespace RateWatch

variable {ι : Type}

/-- The state after a call. -/
def step (w : RateWatch ι) : PolicyAction ι → RateWatch ι
  | .admitVerdict cls connected now =>
    let (verdict, policy) := w.policy.admitVerdict cls connected now
    { policy, admits := w.admits ++ [(cls, now, verdict)] }
  | .pushEvt item => { w with policy := (w.policy.pushEvt item).2 }
  | .popEvt => { w with policy := w.policy.popEvt.2 }
  | .requeueEvtFront item => { w with policy := (w.policy.requeueEvtFront item).2 }

/-- The policy of a configuration under any calls. -/
def system (ι : Type) (cfg : UplinkConfig) : System (RateWatch ι) (PolicyAction ι) where
  init w := w = { policy := .fromConfig cfg, admits := [] }
  step w a := some (w.step a)

/-- Times do not decrease. -/
def InOrder (w : RateWatch ι) (a : PolicyAction ι) : Prop :=
  ∀ cls connected now, a = .admitVerdict cls connected now → ∀ e ∈ w.admits, e.2.1 ≤ now

/-- The times at which messages of a class were forwarded. -/
def forwards (w : RateWatch ι) (cls : UnsClass) : List Instant :=
  (w.admits.filter fun e => e.1 = cls ∧ e.2.2 = .forward).map fun e => e.2.1

/-- The bucket of a class meters the forwarded messages of the class, and these conform. -/
structure Metered (i : Fin 7) (cls : UnsClass) (rate burst : ℕ) (w : RateWatch ι) : Prop where
  bucket : ∃ b, (w.policy.classes i).bucket = some b ∧ b.Meters rate burst (w.forwards cls) ∧
    ∀ last, b.lastRefill = some last → last ∈ w.admits.map fun e => e.2.1
  conforms : Conforms (supply rate) (burst : ℚ) (w.forwards cls)

variable {i : Fin 7} {cls : UnsClass} {rate burst : ℕ} {w : RateWatch ι}

/-- Calls that change neither the state of the class nor the admissions. -/
theorem Metered.congr {w' : RateWatch ι} (h : w.Metered i cls rate burst)
    (hclasses : w'.policy.classes i = w.policy.classes i) (hadmits : w'.admits = w.admits) :
    w'.Metered i cls rate burst := by
  have hforwards : w'.forwards cls = w.forwards cls := by rw [forwards, hadmits, forwards]
  exact ⟨by rw [hclasses, hforwards, hadmits]; exact h.bucket, hforwards ▸ h.conforms⟩

/-- An admission that is not a forwarded one of the class. -/
theorem Metered.skip {w' : RateWatch ι} (h : w.Metered i cls rate burst)
    {e : UnsClass × Instant × UplinkVerdict}
    (hclasses : w'.policy.classes i = w.policy.classes i) (hadmits : w'.admits = w.admits ++ [e])
    (he : ¬ (e.1 = cls ∧ e.2.2 = .forward)) : w'.Metered i cls rate burst := by
  have hforwards : w'.forwards cls = w.forwards cls := by simp [forwards, hadmits, he]
  obtain ⟨b, hbucket, hmeters, hlast⟩ := h.bucket
  refine ⟨⟨b, hclasses ▸ hbucket, hforwards ▸ hmeters, fun last h => ?_⟩, hforwards ▸ h.conforms⟩
  simp [hadmits, hlast last h]

/-- What a call that reaches the cap does, and that the class stays metered. -/
theorem Metered.reaches (h : w.Metered i cls rate burst) (hi : classIndex cls = some i)
    {connected : Bool} {now : Instant} (horder : ∀ e ∈ w.admits, e.2.1 ≤ now)
    (hreach : w.policy.ReachesCap cls connected) :
    ((w.policy.admitVerdict cls connected now).1 = .forward ↔
      ∀ s ≤ now, (window (w.forwards cls) s now : ℚ) + 1 ≤
        burst + (supply rate now - supply rate s)) ∧
    ((w.policy.admitVerdict cls connected now).1 ≠ .forward →
      (w.policy.admitVerdict cls connected now).1 = .dropRateCapped) ∧
    (w.step (.admitVerdict cls connected now)).Metered i cls rate burst := by
  obtain ⟨b, hbucket, hmeters, hlast⟩ := h.bucket
  have hnow : ∀ last, b.lastRefill = some last → last ≤ now := by
    intro last hl
    obtain ⟨e, he, rfl⟩ := List.mem_map.mp (hlast last hl)
    exact horder e he
  obtain ⟨htake, hrefill, hmeters'⟩ := hmeters.tryTake hnow
  obtain ⟨htaken, hbucket'⟩ := UplinkPolicy.takeToken_of_bucket hbucket now
  have hverdict := UplinkPolicy.admitVerdict_of_reaches hi hreach now
  rw [htaken] at hverdict
  have hpolicy : (w.step (.admitVerdict cls connected now)).policy = (w.policy.takeToken i now).2 :=
    congrArg Prod.snd hverdict
  have hadmits : (w.step (.admitVerdict cls connected now)).admits = w.admits ++
      [(cls, now, if (b.tryTake now).1 then .forward else .dropRateCapped)] :=
    congrArg (fun r => w.admits ++ [(cls, now, r.1)]) hverdict
  have hforwards : (w.step (.admitVerdict cls connected now)).forwards cls =
      if (b.tryTake now).1 then w.forwards cls ++ [now] else w.forwards cls := by
    rw [forwards, hadmits, List.filter_append]
    cases (b.tryTake now).1 <;> simp [forwards]
  rw [hverdict]
  refine ⟨?_, ?_, ⟨_, hpolicy ▸ hbucket', hforwards ▸ hmeters', fun last hl => ?_⟩, ?_⟩
  · rw [← htake]
    cases (b.tryTake now).1 <;> simp
  · cases (b.tryTake now).1 <;> simp
  · obtain rfl := Option.some.inj (hrefill.symm.trans hl)
    simp [hadmits]
  · rw [hforwards]
    split
    · rename_i hgot
      exact h.conforms.grant (supply_monotone rate) (hmeters.refill hnow).1 (htake.mp hgot)
    · exact h.conforms

/-- Every call in order keeps a class metered. -/
theorem Metered.step (h : w.Metered i cls rate burst) (hi : classIndex cls = some i)
    {a : PolicyAction ι} (horder : InOrder w a) : (w.step a).Metered i cls rate burst := by
  cases a with
  | admitVerdict cls' connected now =>
    by_cases hcls : cls' = cls
    · subst hcls
      by_cases hreach : w.policy.ReachesCap cls' connected
      · exact (h.reaches hi (horder _ _ _ rfl) hreach).2.2
      · obtain ⟨hverdict, hpolicy⟩ := UplinkPolicy.admitVerdict_of_not_reaches hi hreach now
        have hclasses := congrFun (congrArg UplinkPolicy.classes hpolicy) i
        exact h.skip hclasses rfl fun he => hverdict he.2
    · have hne : classIndex cls' ≠ some i := fun hi' =>
        hcls ((policyClass_of_classIndex hi').symm.trans (policyClass_of_classIndex hi))
      exact h.skip (UplinkPolicy.admitVerdict_classes_of_ne hne now) rfl fun he => hcls he.1
  | pushEvt item =>
    refine h.congr ?_ rfl
    unfold RateWatch.step UplinkPolicy.pushEvt
    split_ifs <;> rfl
  | popEvt => exact h.congr rfl rfl
  | requeueEvtFront item =>
    refine h.congr ?_ rfl
    unfold RateWatch.step UplinkPolicy.requeueEvtFront
    split_ifs <;> rfl

/-- A class with a rate cap is metered in every run in order. -/
theorem metered {cfg : UplinkConfig} (hi : classIndex cls = some i)
    (hcap : cfg.rateCap cls = some (rate, burst))
    (h : (system ι cfg).Reachable InOrder w) : w.Metered i cls rate burst := by
  apply h.invariant
  · rintro w rfl
    refine ⟨⟨_, UplinkPolicy.bucket_fromConfig hi hcap, TokenBucket.meters_new rate burst, ?_⟩,
      .nil (supply_monotone rate) (Nat.cast_nonneg _)⟩
    exact fun last hlast => by simp [TokenBucket.new] at hlast
  · rintro w a w' - hmetered horder hstep
    obtain rfl := Option.some.inj hstep
    exact hmetered.step hi horder

end RateWatch

/-- The rate cap is exactly the token bucket law.  Take any configuration that gives a governed
class a rate and a burst, and any run of calls whose times do not decrease.  A call of `admit` for
the class that reaches the cap, at any time from then on, is forwarded if and only if for every
earlier instant the messages of the class forwarded since then, and this one, are at most the burst
and what the rate has supplied since then; otherwise it is dropped for the cap.  No window ever has
more forwarded messages of the class than that, and a call that does not reach the cap leaves the
policy as it is. -/
theorem rate_cap_law {ι : Type} (cfg : UplinkConfig) {cls : UnsClass} {rate burst : ℕ}
    (hcls : cls ∈ POLICY_CLASSES) (hcap : cfg.rateCap cls = some (rate, burst)) {w : RateWatch ι}
    (h : (RateWatch.system ι cfg).Reachable RateWatch.InOrder w) :
    (∀ connected now, (∀ e ∈ w.admits, e.2.1 ≤ now) →
      (w.policy.ReachesCap cls connected →
        ((w.policy.admitVerdict cls connected now).1 = .forward ↔
          ∀ s ≤ now, (window (w.forwards cls) s now : ℚ) + 1 ≤
            burst + rate * ((now - s : ℚ) / 1000000000)) ∧
        ((w.policy.admitVerdict cls connected now).1 ≠ .forward →
          (w.policy.admitVerdict cls connected now).1 = .dropRateCapped)) ∧
      (¬ w.policy.ReachesCap cls connected →
        (w.policy.admitVerdict cls connected now).1 ≠ .forward ∧
        (w.policy.admitVerdict cls connected now).2 = w.policy)) ∧
    ∀ s t, s ≤ t →
      (window (w.forwards cls) s t : ℚ) ≤ burst + rate * ((t - s : ℚ) / 1000000000) := by
  obtain ⟨i, hi⟩ : ∃ i, classIndex cls = some i := by
    revert hcls
    cases cls <;> simp [classIndex, POLICY_CLASSES]
  have hsupply : ∀ s t, supply rate t - supply rate s = rate * ((t - s : ℚ) / 1000000000) := by
    intro s t
    unfold supply
    ring
  have hmetered := RateWatch.metered hi hcap h
  simp only [← hsupply]
  refine ⟨fun connected now hnow => ⟨fun hreach => ?_, fun hreach => ?_⟩, hmetered.conforms⟩
  · obtain ⟨hforward, hdrop, -⟩ := hmetered.reaches hi hnow hreach
    exact ⟨hforward, hdrop⟩
  · exact UplinkPolicy.admitVerdict_of_not_reaches hi hreach now

/-- Events may burst by two, and two come each second. -/
def twoPerSecond : UplinkConfig where
  classes := Finmap.singleton "evt" { maxRatePerSec := some 2, burst := some 2 }

/-- Two events have been forwarded at once, and an event of another class in between. -/
def RateWatch.burstRun : List (PolicyAction Unit) :=
  [.admitVerdict .evt true 0, .admitVerdict .data true 0, .admitVerdict .evt true 0]

/-- Whether the times do not decrease. -/
def RateWatch.inOrder {ι : Type} (w : RateWatch ι) : PolicyAction ι → Bool
  | .admitVerdict _ _ now => w.admits.all fun e => e.2.1 ≤ now
  | _ => true

/-- A call that passes the test is in order. -/
theorem RateWatch.inOrder_of_test {ι : Type} (w : RateWatch ι) (a : PolicyAction ι)
    (h : w.inOrder a = true) : InOrder w a := by
  rintro cls connected now rfl e he
  simpa using List.all_eq_true.mp h e he

/-- A third event at the same instant is over the cap. -/
theorem rate_cap_law_evt : ∃ w : RateWatch Unit, w.forwards .evt = [0, 0] ∧
    (w.policy.admitVerdict .evt true 0).1 = .dropRateCapped := by
  obtain ⟨w, hw, hobs⟩ := System.exists_reachable_of_exec (M := RateWatch.system Unit twoPerSecond)
    RateWatch.inOrder RateWatch.inOrder_of_test (.init rfl) RateWatch.burstRun
    (fun w => (w.forwards .evt, w.policy.evtBuffer, w.policy.classEnabled .evt,
      w.admits.map fun e => e.2.1)) (x := ([0, 0], [], true, [0, 0, 0])) (by decide +kernel)
  simp only [Prod.mk.injEq] at hobs
  obtain ⟨hforwards, hbuffer, henabled, htimes⟩ := hobs
  have hnow : ∀ e ∈ w.admits, e.2.1 ≤ 0 := by
    intro e he
    have hmem : e.2.1 ∈ w.admits.map fun e => e.2.1 := List.mem_map_of_mem he
    simp only [htimes, List.mem_cons, List.not_mem_nil, or_false, or_self] at hmem
    exact hmem.le
  have hreach : w.policy.ReachesCap .evt true := ⟨henabled, rfl, fun _ => Or.inr hbuffer⟩
  have hcap : twoPerSecond.rateCap .evt = some (2, 2) := by decide +kernel
  obtain ⟨hforward, hdrop⟩ :=
    ((rate_cap_law twoPerSecond (by decide) hcap hw).1 true 0 hnow).1 hreach
  refine ⟨w, hforwards, hdrop fun hverdict => ?_⟩
  have hlaw := hforward.mp hverdict 0 le_rfl
  norm_num [hforwards, window] at hlaw

end UnsBridge
