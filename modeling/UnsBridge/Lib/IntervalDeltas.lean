import Mathlib.Algebra.Order.BigOperators.Group.List
import Mathlib.Algebra.Order.Sub.Basic

/-!
# Reports of interval deltas

A quantity that only grows is sampled from time to time, and each sample is followed by a report of
what the quantity has grown by since the sample before.  A report arrives or it is lost.  Over
periods that follow one another from `a` to `b`, `Spans a is b`, the deltas telescope: what was
reported and what was lost add up to the growth, `Spans.reported_add_lost`.  So the reports never
exceed the growth, and they account for all of it exactly if nothing grew in a period whose
report was lost, `Spans.reported_eq_iff`.
-/

namespace IntervalDeltas

/-- A period: the value at its start and at its end, and whether its report arrived. -/
structure Period (α : Type*) where
  start : α
  stop : α
  delivered : Bool

variable {α : Type*}

/-- The periods follow one another from `a` to `b`, and the value never falls. -/
def Spans [LE α] (a : α) : List (Period α) → α → Prop
  | [], b => a = b
  | i :: is, b => i.start = a ∧ a ≤ i.stop ∧ Spans i.stop is b

/-- A sequence of periods is split at the value that its first part ends with. -/
theorem spans_append [LE α] {a c : α} {is js : List (Period α)} :
    Spans a (is ++ js) c ↔ ∃ b, Spans a is b ∧ Spans b js c := by
  induction is generalizing a with
  | nil => simp [Spans]
  | cons i is ih =>
    simp only [List.cons_append, Spans, ih]
    constructor
    · rintro ⟨hstart, hle, b, his, hjs⟩
      exact ⟨b, ⟨hstart, hle, his⟩, hjs⟩
    · rintro ⟨b, ⟨hstart, hle, his⟩, hjs⟩
      exact ⟨hstart, hle, b, his, hjs⟩

/-- A further period at the end. -/
theorem Spans.snoc [LE α] {a b : α} {is : List (Period α)} (h : Spans a is b) {i : Period α}
    (hstart : i.start = b) (hle : b ≤ i.stop) : Spans a (is ++ [i]) i.stop :=
  spans_append.mpr ⟨b, h, hstart, hle, rfl⟩

/-- Along the periods each one starts below its end. -/
theorem Spans.start_le_stop [Preorder α] {a b : α} {is : List (Period α)} (h : Spans a is b) :
    ∀ i ∈ is, i.start ≤ i.stop := by
  induction is generalizing a with
  | nil => simp
  | cons i is ih =>
    obtain ⟨rfl, hle, hrest⟩ := h
    intro j hj
    rcases List.mem_cons.mp hj with rfl | hj
    · exact hle
    · exact ih hrest j hj

section Deltas

variable [AddCommMonoid α] [Sub α]

/-- What a period reports. -/
def Period.delta (i : Period α) : α := i.stop - i.start

/-- The sum of the reports that arrived. -/
def reported (is : List (Period α)) : α :=
  ((is.filter Period.delivered).map Period.delta).sum

/-- The sum of the reports that were lost. -/
def lost (is : List (Period α)) : α :=
  ((is.filter fun i => !i.delivered).map Period.delta).sum

@[simp] theorem reported_nil : reported ([] : List (Period α)) = 0 := rfl

@[simp] theorem lost_nil : lost ([] : List (Period α)) = 0 := rfl

/-- A further period in front is reported if its report arrived. -/
theorem reported_cons (i : Period α) (is : List (Period α)) :
    reported (i :: is) = (if i.delivered then i.delta else 0) + reported is := by
  unfold reported
  cases hi : i.delivered with
  | true => simp [hi]
  | false => simp [hi]

/-- A further period in front is lost if its report was lost. -/
theorem lost_cons (i : Period α) (is : List (Period α)) :
    lost (i :: is) = (if i.delivered then 0 else i.delta) + lost is := by
  unfold lost
  cases hi : i.delivered with
  | true => simp [hi]
  | false => simp [hi]

/-- A further period in front adds its delta to one of the two sums. -/
theorem reported_add_lost_cons (i : Period α) (is : List (Period α)) :
    reported (i :: is) + lost (i :: is) = i.delta + (reported is + lost is) := by
  rw [reported_cons, lost_cons]
  cases i.delivered with
  | true => simp [add_assoc]
  | false => simp [add_left_comm]

end Deltas

variable [AddCommMonoid α] [PartialOrder α] [IsOrderedCancelAddMonoid α] [CanonicallyOrderedAdd α]
  [Sub α] [OrderedSub α] {a b : α} {is : List (Period α)}

/-- The deltas telescope: what was reported and what was lost add up to the growth. -/
theorem Spans.reported_add_lost (h : Spans a is b) : a + (reported is + lost is) = b := by
  induction is generalizing a with
  | nil => simpa [Spans] using h
  | cons i is ih =>
    obtain ⟨rfl, hle, hrest⟩ := h
    calc i.start + (reported (i :: is) + lost (i :: is))
        = i.start + i.delta + (reported is + lost is) := by
          rw [reported_add_lost_cons, add_assoc]
      _ = i.stop + (reported is + lost is) := by
          rw [Period.delta, add_tsub_cancel_of_le hle]
      _ = b := ih hrest

/-- No growth is reported twice. -/
theorem Spans.reported_le (h : Spans a is b) : a + reported is ≤ b := by
  rw [← h.reported_add_lost, ← add_assoc]
  exact le_self_add

/-- Nothing was lost if nothing grew in the periods whose reports were lost. -/
theorem Spans.lost_eq_zero_iff (h : Spans a is b) :
    lost is = 0 ↔ ∀ i ∈ is, i.delivered = false → i.stop = i.start := by
  rw [lost, List.sum_eq_zero_iff]
  constructor
  · intro hzero i hi hlost
    have hmem : i ∈ is.filter fun i => !i.delivered := List.mem_filter.mpr ⟨hi, by simp [hlost]⟩
    have hdelta : i.delta = 0 := hzero _ (List.mem_map_of_mem hmem)
    exact le_antisymm (tsub_eq_zero_iff_le.mp hdelta) (h.start_le_stop i hi)
  · intro hsame x hx
    obtain ⟨i, hi, rfl⟩ := List.mem_map.mp hx
    obtain ⟨hi, hlost⟩ := List.mem_filter.mp hi
    rw [Period.delta, hsame i hi (by simpa using hlost), tsub_self]

/-- The reports account for all the growth exactly if nothing grew in the periods whose reports
were lost. -/
theorem Spans.reported_eq_iff (h : Spans a is b) :
    a + reported is = b ↔ ∀ i ∈ is, i.delivered = false → i.stop = i.start := by
  rw [← h.lost_eq_zero_iff]
  have hsum := h.reported_add_lost
  rw [← add_assoc] at hsum
  constructor
  · intro heq
    rw [heq] at hsum
    exact add_eq_left.mp hsum
  · intro hlost
    rwa [hlost, add_zero] at hsum

end IntervalDeltas
