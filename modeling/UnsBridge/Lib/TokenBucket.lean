import Mathlib.Algebra.Order.Field.Basic
import Mathlib.Data.List.Count
import Mathlib.Order.Bounds.Basic
import Mathlib.Tactic.Linarith
import Mathlib.Tactic.Ring

/-!
# The token bucket law

A token bucket of capacity `C` is filled by a supply `φ`, a monotone function of time, and gives a
token to each grant.  The law of the bucket bounds the grants of every window: in `[s, t]` there are
at most `C + (φ t - φ s)`.  The level of the bucket at `t` is what the tightest window that ends at
`t` leaves, `IsLevel`, so that one more grant at `t` conforms exactly if the level is at least one.

Buckets are filled lazily: the level at a later time is the old one plus the supply in between,
capped at the capacity, `IsLevel.refill`, whatever happened or did not happen in between.
-/

namespace TokenBucketLaw

variable {T K : Type*} [LinearOrder T] [Field K] [LinearOrder K] [IsStrictOrderedRing K]

/-- The number of grants in a window. -/
def window (g : List T) (s t : T) : ℕ := g.countP fun u => s ≤ u ∧ u ≤ t

/-- What the window from `s` to `t` leaves. -/
def slack (φ : T → K) (C : K) (g : List T) (t s : T) : K := C + (φ t - φ s) - window g s t

/-- The level at `t`: the least that a window that ends at `t` leaves. -/
def IsLevel (φ : T → K) (C : K) (g : List T) (t : T) (x : K) : Prop :=
  IsLeast (slack φ C g t '' Set.Iic t) x

/-- No window has more grants than the law allows. -/
def Conforms (φ : T → K) (C : K) (g : List T) : Prop :=
  ∀ s t, s ≤ t → (window g s t : K) ≤ C + (φ t - φ s)

variable {φ : T → K} {C x : K} {g : List T} {s t t' : T}

/-- A grant that lies in the window counts, and no other. -/
theorem window_append_singleton (g : List T) (u s t : T) :
    window (g ++ [u]) s t = window g s t + if s ≤ u ∧ u ≤ t then 1 else 0 := by
  simp [window, List.countP_append, List.countP_singleton]

/-- No grants after the last one. -/
theorem window_eq_zero (hg : ∀ u ∈ g, u < s) : window g s t = 0 :=
  List.countP_eq_zero.mpr fun u hu => by simp [hg u hu]

/-- A window may be extended where there are no grants. -/
theorem window_extend (hg : ∀ u ∈ g, u ≤ t) (htt' : t ≤ t') : window g s t' = window g s t := by
  refine List.countP_congr fun u hu => ?_
  simp [hg u hu, (hg u hu).trans htt']

/-- One more grant conforms exactly if the level is at least one. -/
theorem IsLevel.one_le_iff (h : IsLevel φ C g t x) :
    1 ≤ x ↔ ∀ s ≤ t, (window g s t : K) + 1 ≤ C + (φ t - φ s) := by
  constructor
  · intro hx s hs
    have hle : x ≤ slack φ C g t s := h.2 ⟨s, hs, rfl⟩
    unfold slack at hle
    linarith
  · intro hall
    obtain ⟨s, hs, rfl⟩ := h.1
    have hle := hall s hs
    unfold slack
    linarith

/-- A level is at most the capacity. -/
theorem IsLevel.le_capacity (h : IsLevel φ C g t x) : x ≤ C := by
  have hle : x ≤ slack φ C g t t := h.2 ⟨t, le_rfl, rfl⟩
  have hcount : (0 : K) ≤ window g t t := Nat.cast_nonneg _
  unfold slack at hle
  linarith

/-- A bucket without grants is full. -/
theorem IsLevel.full (hφ : Monotone φ) (C : K) (t : T) : IsLevel φ C [] t C := by
  refine ⟨⟨t, le_rfl, by simp [slack, window]⟩, ?_⟩
  rintro _ ⟨s, hs, rfl⟩
  have hmono := hφ hs
  simp only [slack, window, List.countP_nil, Nat.cast_zero]
  linarith

/-- The level at a later time. -/
theorem IsLevel.refill (hφ : Monotone φ) (h : IsLevel φ C g t x) (hg : ∀ u ∈ g, u ≤ t)
    (htt' : t ≤ t') : IsLevel φ C g t' (min (x + (φ t' - φ t)) C) := by
  -- a window that ends at `t'` starts before `t` and was there before, or starts after all grants
  have hslack : ∀ s, slack φ C g t' s = slack φ C g t s + (φ t' - φ t) := by
    intro s
    rw [slack, slack, window_extend hg htt']
    ring
  have hempty : ∀ s, t < s → slack φ C g t' s = C + (φ t' - φ s) := by
    intro s hs
    rw [slack, window_eq_zero fun u hu => (hg u hu).trans_lt hs]
    simp
  constructor
  · rcases le_total (x + (φ t' - φ t)) C with hle | hle
    · obtain ⟨s, hs, rfl⟩ := h.1
      exact ⟨s, hs.trans htt', by rw [hslack s, min_eq_left hle]⟩
    · rw [min_eq_right hle]
      rcases htt'.eq_or_lt with rfl | hlt
      · obtain ⟨s, hs, hx⟩ := h.1
        refine ⟨s, hs, hx.trans (le_antisymm h.le_capacity ?_)⟩
        simpa using hle
      · exact ⟨t', le_rfl, by rw [hempty t' hlt]; ring⟩
  · rintro _ ⟨s, hs, rfl⟩
    rcases le_or_gt s t with hst | hst
    · have hle : x ≤ slack φ C g t s := h.2 ⟨s, hst, rfl⟩
      rw [hslack s]
      exact (min_le_left _ _).trans (by linarith)
    · have hmono := hφ (Set.mem_Iic.mp hs)
      rw [hempty s hst]
      exact (min_le_right _ _).trans (by linarith)

/-- A grant takes one token. -/
theorem IsLevel.grant (h : IsLevel φ C g t x) : IsLevel φ C (g ++ [t]) t (x - 1) := by
  have hslack : ∀ s ≤ t, slack φ C (g ++ [t]) t s = slack φ C g t s - 1 := by
    intro s hs
    rw [slack, slack, window_append_singleton, if_pos ⟨hs, le_rfl⟩, Nat.cast_add, Nat.cast_one]
    ring
  constructor
  · obtain ⟨s, hs, rfl⟩ := h.1
    exact ⟨s, hs, hslack s hs⟩
  · rintro _ ⟨s, hs, rfl⟩
    have hle : x ≤ slack φ C g t s := h.2 ⟨s, hs, rfl⟩
    rw [hslack s hs]
    linarith

/-- No grants conform. -/
theorem Conforms.nil (hφ : Monotone φ) (hC : 0 ≤ C) : Conforms φ C [] := by
  intro s t hst
  have hmono := hφ hst
  simp only [window, List.countP_nil, Nat.cast_zero]
  linarith

/-- A grant that conforms with the grants before it keeps all windows within the law. -/
theorem Conforms.grant (hφ : Monotone φ) (h : Conforms φ C g) (hg : ∀ u ∈ g, u ≤ t)
    (ht : ∀ s ≤ t, (window g s t : K) + 1 ≤ C + (φ t - φ s)) : Conforms φ C (g ++ [t]) := by
  intro s t' hst'
  rw [window_append_singleton]
  split
  · rename_i hin
    have hmono := hφ hin.2
    have hnew := ht s hin.1
    rw [window_extend hg hin.2, Nat.cast_add, Nat.cast_one]
    linarith
  · simpa using h s t' hst'

end TokenBucketLaw
