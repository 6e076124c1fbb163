import Mathlib.Algebra.Order.Ring.Unbundled.Rat
import UnsBridge.Config
import UnsBridge.Uns

/-!
# The per-class uplink policy

`UplinkPolicy` decides what an uplink-forwardable message may do: it drops messages of disabled
classes, buffers or drops while the site link is down, keeps a live event behind buffered ones and
caps the rate of a class with a token bucket.  The replay buffer for events is bounded and drops its
oldest element on overflow.  The policy never looks at what it buffers, so the type `ι` of the
buffered items (topic and bytes in the source) is arbitrary.

Bucket arithmetic is exact here; the source computes with `f64`.
-/

namespace UnsBridge

/-- `POLICY_CLASSES`: the classes that the policy governs. -/
def POLICY_CLASSES : List UnsClass := [.state, .cfg, .evt, .metric, .data, .log, .app]

/-- `class_index`: the policy slot of a class; commands have none. -/
def classIndex : UnsClass → Option (Fin 7)
  | .state => some 0
  | .cfg => some 1
  | .evt => some 2
  | .metric => some 3
  | .data => some 4
  | .log => some 5
  | .app => some 6
  | .cmd => none

/-- The class of a policy slot. -/
def policyClass : Fin 7 → UnsClass
  | 0 => .state
  | 1 => .cfg
  | 2 => .evt
  | 3 => .metric
  | 4 => .data
  | 5 => .log
  | 6 => .app

/-- A slot belongs to one class. -/
theorem policyClass_of_classIndex {cls : UnsClass} {i : Fin 7} (hi : classIndex cls = some i) :
    policyClass i = cls := by
  revert hi
  cases cls <;> simp +contextual [classIndex, eq_comm, policyClass]

/-- `UplinkVerdict`. -/
inductive UplinkVerdict where
  | forward
  | dropDisabled
  | dropDisconnected
  | dropRateCapped
  | buffer
  deriving DecidableEq, Repr

/-- `EvtPush`: the outcome of one push into the replay buffer. -/
inductive EvtPush where
  | stored (evictedOldest : Bool)
  | rejected
  deriving DecidableEq, Repr

/-- A token bucket. -/
structure TokenBucket where
  ratePerSec : ℚ
  capacity : ℚ
  tokens : ℚ
  lastRefill : Option Instant

namespace TokenBucket

/-- `TokenBucket::new`: the bucket starts full. -/
def new (rate burst : ℕ) : TokenBucket where
  ratePerSec := rate
  capacity := burst
  tokens := burst
  lastRefill := none

/-- The refill of `try_take`: the time since the last call, saturating at zero, times the rate,
capped at the capacity. -/
def refill (b : TokenBucket) (now : Instant) : ℚ :=
  match b.lastRefill with
  | some last => min (b.tokens + ((now - last).toNat : ℚ) / 1000000000 * b.ratePerSec) b.capacity
  | none => b.tokens

/-- `TokenBucket::try_take`. -/
def tryTake (b : TokenBucket) (now : Instant) : Bool × TokenBucket :=
  let tokens := b.refill now
  if 1 ≤ tokens then (true, { b with tokens := tokens - 1, lastRefill := some now })
  else (false, { b with tokens, lastRefill := some now })

end TokenBucket

/-- The runtime policy state of one class. -/
structure ClassState where
  enabled : Bool
  bucket : Option TokenBucket

/-- `UplinkPolicy`; the front of the buffer is its oldest item, and a bound of zero switches
buffering off. -/
structure UplinkPolicy (ι : Type) where
  classes : Fin 7 → ClassState
  evtBuffer : List ι
  evtBufferMax : ℕ

namespace UplinkPolicy

variable {ι : Type}

/-- The class state that `from_config` sets up from the policy of a class. -/
def classState (cls : UnsClass) (policy : Option ClassPolicy) : ClassState where
  enabled := (policy.bind ClassPolicy.enabled).getD (cls ≠ .app)
  bucket := (policy.bind ClassPolicy.maxRatePerSec).map fun rate =>
    TokenBucket.new rate ((policy.bind ClassPolicy.burst).getD (min (rate * 2) (2 ^ 32 - 1)))

/-- `UplinkPolicy::from_config`. -/
def fromConfig (cfg : UplinkConfig) : UplinkPolicy ι where
  classes i := classState (policyClass i) (cfg.classes.lookup (policyClass i).token)
  evtBuffer := []
  evtBufferMax :=
    match (cfg.classes.lookup UnsClass.evt.token).bind ClassPolicy.bufferWhileDisconnected with
    | some b => if b.enabled then b.maxMessages else 0
    | none => DEFAULT_EVT_BUFFER_MAX

/-- Whether a class is relayed at all. -/
def classEnabled (p : UplinkPolicy ι) (cls : UnsClass) : Bool :=
  match classIndex cls with
  | some i => (p.classes i).enabled
  | none => false

/-- Whether a class carries a rate cap. -/
def hasRateCap (p : UplinkPolicy ι) (cls : UnsClass) : Bool :=
  match classIndex cls with
  | some i => (p.classes i).bucket.isSome
  | none => false

/-- The rate cap of `admitVerdict`: one token of the class's bucket, if it has one. -/
def takeToken (p : UplinkPolicy ι) (i : Fin 7) (now : Instant) : Bool × UplinkPolicy ι :=
  match (p.classes i).bucket with
  | none => (true, p)
  | some bucket =>
    let (taken, bucket) := bucket.tryTake now
    let state := { p.classes i with bucket := some bucket }
    (taken, { p with classes := Function.update p.classes i state })

/-- `UplinkPolicy::admit`. -/
def admitVerdict (p : UplinkPolicy ι) (cls : UnsClass) (connected : Bool) (now : Instant) :
    UplinkVerdict × UplinkPolicy ι :=
  match classIndex cls with
  | none => (.forward, p)
  | some i =>
    if !(p.classes i).enabled then (.dropDisabled, p)
    else
      let buffering := cls = .evt && 0 < p.evtBufferMax
      if !connected then (if buffering then .buffer else .dropDisconnected, p)
      else if buffering && !p.evtBuffer.isEmpty then (.buffer, p)
      else
        let (taken, p) := p.takeToken i now
        (if taken then .forward else .dropRateCapped, p)

/-- `UplinkPolicy::push_evt`. -/
def pushEvt (p : UplinkPolicy ι) (item : ι) : EvtPush × UplinkPolicy ι :=
  if p.evtBufferMax = 0 then (.rejected, p)
  else if p.evtBufferMax ≤ p.evtBuffer.length then
    (.stored true, { p with evtBuffer := p.evtBuffer.tail ++ [item] })
  else (.stored false, { p with evtBuffer := p.evtBuffer ++ [item] })

/-- `UplinkPolicy::pop_evt`. -/
def popEvt (p : UplinkPolicy ι) : Option ι × UplinkPolicy ι :=
  (p.evtBuffer.head?, { p with evtBuffer := p.evtBuffer.tail })

/-- `UplinkPolicy::requeue_evt_front`. -/
def requeueEvtFront (p : UplinkPolicy ι) (item : ι) : Bool × UplinkPolicy ι :=
  if p.evtBufferMax ≤ p.evtBuffer.length then (false, p)
  else (true, { p with evtBuffer := item :: p.evtBuffer })

/-- `UplinkPolicy::buffered_evt`. -/
def bufferedEvt (p : UplinkPolicy ι) : ℕ := p.evtBuffer.length

/-! ### What one call does -/

/-- Two policies that differ at most in their token buckets and their buffers. -/
structure SameSetup (p q : UplinkPolicy ι) : Prop where
  evtBufferMax : q.evtBufferMax = p.evtBufferMax
  classEnabled : ∀ cls, q.classEnabled cls = p.classEnabled cls
  hasRateCap : ∀ cls, q.hasRateCap cls = p.hasRateCap cls

/-- A policy has its own setup. -/
theorem SameSetup.refl (p : UplinkPolicy ι) : SameSetup p p := ⟨rfl, fun _ => rfl, fun _ => rfl⟩

/-- Setups are compared transitively. -/
theorem SameSetup.trans {p q r : UplinkPolicy ι} (h : SameSetup p q) (h' : SameSetup q r) :
    SameSetup p r :=
  ⟨h'.1.trans h.1, fun c => (h'.2 c).trans (h.2 c), fun c => (h'.3 c).trans (h.3 c)⟩

/-- Exchanging the buffer keeps the setup. -/
theorem sameSetup_evtBuffer (p : UplinkPolicy ι) (buffer : List ι) :
    SameSetup p { p with evtBuffer := buffer } := ⟨rfl, fun _ => rfl, fun _ => rfl⟩

/-- Taking a token keeps the setup. -/
theorem sameSetup_takeToken (p : UplinkPolicy ι) (i : Fin 7) (now : Instant) :
    SameSetup p (p.takeToken i now).2 := by
  unfold takeToken
  cases hb : (p.classes i).bucket with
  | none => exact .refl p
  | some bucket =>
    refine ⟨rfl, fun cls => ?_, fun cls => ?_⟩
    · simp only [UplinkPolicy.classEnabled]
      cases classIndex cls with
      | none => rfl
      | some j =>
        by_cases hij : j = i
        · subst hij
          simp
        · simp [hij]
    · simp only [UplinkPolicy.hasRateCap]
      cases classIndex cls with
      | none => rfl
      | some j =>
        by_cases hij : j = i
        · subst hij
          simp [hb]
        · simp [hij]

/-- Taking a token leaves the buffer alone. -/
@[simp] theorem takeToken_evtBuffer (p : UplinkPolicy ι) (i : Fin 7) (now : Instant) :
    (p.takeToken i now).2.evtBuffer = p.evtBuffer := by
  unfold takeToken
  cases (p.classes i).bucket <;> rfl

/-- A class without a rate cap always gets its token. -/
theorem takeToken_fst_of_uncapped {p : UplinkPolicy ι} {i : Fin 7} (now : Instant)
    (h : (p.classes i).bucket = none) : (p.takeToken i now).1 = true := by
  simp [takeToken, h]

/-- Everything that a call of `admitVerdict` for a governed class can do: its verdict, with the
reasons for it, and the fact that it touches neither the buffer nor the setup. -/
theorem admitVerdict_cases {p : UplinkPolicy ι} {cls : UnsClass} {i : Fin 7}
    (hi : classIndex cls = some i) (connected : Bool) (now : Instant) :
    (p.admitVerdict cls connected now).2.evtBuffer = p.evtBuffer ∧
      SameSetup p (p.admitVerdict cls connected now).2 ∧
      match (p.admitVerdict cls connected now).1 with
      | .forward => p.classEnabled cls = true ∧ connected = true ∧
          (cls = .evt → 0 < p.evtBufferMax → p.evtBuffer = [])
      | .buffer => p.classEnabled cls = true ∧ cls = .evt ∧ 0 < p.evtBufferMax ∧
          (connected = false ∨ p.evtBuffer ≠ [])
      | .dropDisabled => p.classEnabled cls = false
      | .dropDisconnected => p.classEnabled cls = true ∧ connected = false ∧
          (cls = .evt → p.evtBufferMax = 0)
      | .dropRateCapped => p.classEnabled cls = true ∧ p.hasRateCap cls = true := by
  have hen : p.classEnabled cls = (p.classes i).enabled := by simp [classEnabled, hi]
  have hcap : p.hasRateCap cls = (p.classes i).bucket.isSome := by simp [hasRateCap, hi]
  unfold admitVerdict
  simp only [hi, hen, hcap]
  cases hdis : (p.classes i).enabled with
  | false => exact ⟨rfl, .refl p, rfl⟩
  | true =>
    by_cases hbuf : (decide (cls = .evt) && decide (0 < p.evtBufferMax)) = true
    · obtain ⟨hevt, hmax⟩ : cls = .evt ∧ 0 < p.evtBufferMax := by simpa using hbuf
      subst hevt
      cases connected with
      | false => simp [hmax, SameSetup.refl]
      | true =>
        cases hb : p.evtBuffer with
        | nil =>
          simp only [hmax, decide_true, Bool.and_self, Bool.not_true, Bool.false_eq_true, if_false,
            List.isEmpty_nil, Bool.and_false, takeToken_evtBuffer, hb, true_and]
          refine ⟨sameSetup_takeToken p i now, ?_⟩
          cases ht : (p.takeToken i now).1 with
          | true => simp
          | false =>
            cases hbk : (p.classes i).bucket with
            | none => simp [takeToken_fst_of_uncapped now hbk] at ht
            | some bucket => simp
        | cons item rest => simp [hmax, SameSetup.refl, hb]
    · have hnot : cls = .evt → p.evtBufferMax = 0 := by
        intro hevt
        by_contra hne
        exact hbuf (by simp [hevt, Nat.pos_of_ne_zero hne])
      rw [Bool.not_eq_true] at hbuf
      cases connected with
      | false => simpa [hbuf, SameSetup.refl] using hnot
      | true =>
        simp only [hbuf, Bool.not_true, Bool.false_eq_true, if_false, Bool.false_and,
          takeToken_evtBuffer, true_and]
        refine ⟨sameSetup_takeToken p i now, ?_⟩
        cases ht : (p.takeToken i now).1 with
        | true =>
          simp only [if_true]
          exact fun hevt hmax => absurd hmax (by simp [hnot hevt])
        | false =>
          cases hbk : (p.classes i).bucket with
          | none => simp [takeToken_fst_of_uncapped now hbk] at ht
          | some bucket => simp

/-- No call of `admitVerdict` touches the buffer or the setup. -/
theorem admitVerdict_keeps (p : UplinkPolicy ι) (cls : UnsClass) (connected : Bool)
    (now : Instant) : (p.admitVerdict cls connected now).2.evtBuffer = p.evtBuffer ∧
      SameSetup p (p.admitVerdict cls connected now).2 := by
  cases hi : classIndex cls with
  | none => simp [admitVerdict, hi, SameSetup.refl]
  | some i =>
    obtain ⟨hbuffer, hsetup, -⟩ := admitVerdict_cases (p := p) hi connected now
    exact ⟨hbuffer, hsetup⟩

/-- An admission leaves the buffer alone. -/
theorem evtBuffer_of_admitVerdict {p p' : UplinkPolicy ι} {cls : UnsClass} {connected : Bool}
    {now : Instant} {verdict : UplinkVerdict}
    (h : p.admitVerdict cls connected now = (verdict, p')) : p'.evtBuffer = p.evtBuffer := by
  have hkeeps := (p.admitVerdict_keeps cls connected now).1
  rwa [h] at hkeeps

/-- A push is rejected exactly when buffering is off; otherwise the item joins the back of the
buffer, and a full buffer loses its front. -/
theorem pushEvt_cases (p : UplinkPolicy ι) (item : ι) :
    SameSetup p (p.pushEvt item).2 ∧
      match (p.pushEvt item).1 with
      | .rejected => p.evtBufferMax = 0 ∧ (p.pushEvt item).2.evtBuffer = p.evtBuffer
      | .stored true => 0 < p.evtBufferMax ∧ p.evtBufferMax ≤ p.evtBuffer.length ∧
          (p.pushEvt item).2.evtBuffer = p.evtBuffer.tail ++ [item]
      | .stored false => p.evtBuffer.length < p.evtBufferMax ∧
          (p.pushEvt item).2.evtBuffer = p.evtBuffer ++ [item] := by
  unfold pushEvt
  by_cases hzero : p.evtBufferMax = 0
  · simp [hzero, SameSetup.refl]
  · by_cases hfull : p.evtBufferMax ≤ p.evtBuffer.length
    · simp [hzero, hfull, sameSetup_evtBuffer, Nat.pos_of_ne_zero hzero]
    · simp [hzero, hfull, sameSetup_evtBuffer, Nat.not_le.mp hfull]

/-- A push into a buffer with room. -/
theorem pushEvt_of_room (p : UplinkPolicy ι) (item : ι)
    (h : p.evtBuffer.length < p.evtBufferMax) :
    p.pushEvt item = (.stored false, { p with evtBuffer := p.evtBuffer ++ [item] }) := by
  have hon : p.evtBufferMax ≠ 0 := by omega
  simp [pushEvt, hon, Nat.not_le.mpr h]

/-- A push into a full buffer. -/
theorem pushEvt_of_full (p : UplinkPolicy ι) (item : ι) (hon : 0 < p.evtBufferMax)
    (h : p.evtBufferMax ≤ p.evtBuffer.length) :
    p.pushEvt item = (.stored true, { p with evtBuffer := p.evtBuffer.tail ++ [item] }) := by
  simp [pushEvt, Nat.pos_iff_ne_zero.mp hon, h]

/-- A requeue puts the item back at the front unless the buffer is full. -/
theorem requeueEvtFront_cases (p : UplinkPolicy ι) (item : ι) :
    SameSetup p (p.requeueEvtFront item).2 ∧
      match (p.requeueEvtFront item).1 with
      | false => p.evtBufferMax ≤ p.evtBuffer.length ∧
          (p.requeueEvtFront item).2.evtBuffer = p.evtBuffer
      | true => p.evtBuffer.length < p.evtBufferMax ∧
          (p.requeueEvtFront item).2.evtBuffer = item :: p.evtBuffer := by
  unfold requeueEvtFront
  by_cases hfull : p.evtBufferMax ≤ p.evtBuffer.length
  · simp [hfull, SameSetup.refl]
  · simp [hfull, sameSetup_evtBuffer, Nat.not_le.mp hfull]

end UplinkPolicy

/-- A call of one of the operations of a policy. -/
inductive PolicyAction (ι : Type) where
  | admitVerdict (cls : UnsClass) (connected : Bool) (now : Instant)
  | pushEvt (item : ι)
  | popEvt
  | requeueEvtFront (item : ι)

end UnsBridge
