import Mathlib.Algebra.BigOperators.Group.Finset.Basic
import Mathlib.Algebra.GroupWithZero.Nat
import Mathlib.Algebra.Order.BigOperators.Group.List
import Mathlib.Algebra.Order.Group.Nat
import Mathlib.Data.List.Nodup

/-!
# Keyed and sorted lists, and sums over tasks

Facts on finite collections.  Removing an absent key from a list of keyed entries changes nothing,
and where the keys are pairwise different, removing the keys of some entries removes these entries.
In a list that is sorted by a key, what stands before the first element with a key above a bound are
exactly the elements with a key up to the bound.  Where keys are unique, at most one element has a
given key.  In a sum over finitely many tasks, a step of one task exchanges the summand of that
task, and a sum falls by what one of its summands falls by, if no other one grows.
-/

namespace Collections

section Keys

variable {K V : Type*} [DecidableEq K] {l : List (K × V)}

/-- Removing a key that is not there changes nothing. -/
theorem filter_key_ne_of_notMem {k : K} (hk : k ∉ l.map Prod.fst) :
    l.filter (fun p => p.1 ≠ k) = l := by
  rw [List.filter_eq_self]
  intro p hp
  have hne : p.1 ≠ k := fun heq => hk (heq ▸ List.mem_map_of_mem hp)
  simpa using hne

/-- Where the keys are pairwise different, removing the keys of the entries with `q` removes
exactly these entries. -/
theorem filter_key_notMem_filter (hl : (l.map Prod.fst).Nodup) (q : K × V → Bool) :
    l.filter (fun p => p.1 ∉ (l.filter q).map Prod.fst) = l.filter fun p => !q p := by
  refine List.filter_congr fun p hp => ?_
  have hiff : p.1 ∈ (l.filter q).map Prod.fst ↔ q p = true := by
    constructor
    · intro hmem
      obtain ⟨p', hp', heq⟩ := List.mem_map.mp hmem
      obtain ⟨hp', hq⟩ := List.mem_filter.mp hp'
      exact List.inj_on_of_nodup_map hl hp' hp heq ▸ hq
    · intro hq
      exact List.mem_map_of_mem (List.mem_filter.mpr ⟨hp, hq⟩)
  rw [Bool.eq_iff_iff]
  simp [hiff]

end Keys

/-- In a list sorted by `f`, the elements before the first one above `b` are those up to `b`. -/
theorem take_findIdx_of_sorted {α β : Type*} [LinearOrder β] (f : α → β) (b : β) {l : List α}
    (h : l.Pairwise fun x y => f x ≤ f y) :
    l.take (l.findIdx fun x => b < f x) = l.filter (fun x => f x ≤ b) ∧
      l.drop (l.findIdx fun x => b < f x) = l.filter fun x => !(f x ≤ b) := by
  induction h with
  | nil => simp
  | @cons a l ha hl ih =>
    by_cases hab : b < f a
    · -- all later elements are above the bound, too
      have hlater : ∀ x ∈ l, b < f x := fun x hx => hab.trans_le (ha x hx)
      have hnone : l.filter (fun x => f x ≤ b) = [] := by
        simpa [List.filter_eq_nil_iff] using hlater
      have hall : l.filter (fun x => !(f x ≤ b)) = l := by
        simpa [List.filter_eq_self] using hlater
      have hidx : (a :: l).findIdx (fun x => b < f x) = 0 := by simp [List.findIdx_cons, hab]
      simpa [hidx, hab, hnone] using hall.symm
    · have hidx : (a :: l).findIdx (fun x => b < f x) = l.findIdx (fun x => b < f x) + 1 := by
        simp [List.findIdx_cons, hab]
      have hle : f a ≤ b := not_lt.mp hab
      refine ⟨?_, ?_⟩
      · simp [hidx, hle, ih.1]
      · simpa [hidx, hle, hab] using ih.2

section Unique

variable {α β : Type*} [DecidableEq β] {l : List α} {f : α → β}

/-- Where the keys are pairwise different, at most one element has a given key. -/
theorem length_filter_le_one_of_nodup (h : (l.map f).Nodup) (x : β) :
    (l.filter fun a => f a = x).length ≤ 1 := by
  have hmap : (l.filter fun a => f a = x).map f =
      List.replicate (l.filter fun a => f a = x).length x :=
    List.eq_replicate_iff.mpr ⟨by simp, fun y hy => by
      obtain ⟨a, ha, rfl⟩ := List.mem_map.mp hy
      simpa using (List.mem_filter.mp ha).2⟩
  have hnodup : ((l.filter fun a => f a = x).map f).Nodup := h.sublist (List.filter_sublist.map f)
  rw [hmap] at hnodup
  exact List.nodup_replicate.mp hnodup

/-- Where all elements with a property have the same key, and at most one of them has any given key,
at most one element has the property. -/
theorem length_filter_le_one_of_key {p : α → Prop} [DecidablePred p]
    (hsame : ∀ a ∈ l, ∀ b ∈ l, p a → p b → f a = f b)
    (hone : ∀ x, ((l.filter fun a => f a = x).filter fun a => p a).length ≤ 1) :
    (l.filter fun a => p a).length ≤ 1 := by
  cases hl : l.filter fun a => p a with
  | nil => simp
  | cons a rest =>
    obtain ⟨ha, hpa⟩ : a ∈ l ∧ p a := by
      simpa using List.mem_filter.mp (hl ▸ List.mem_cons_self : a ∈ l.filter fun b => p b)
    have hfilter : (l.filter fun b => f b = f a).filter (fun b => p b) = l.filter fun b => p b := by
      rw [List.filter_filter]
      refine List.filter_congr fun b hb => ?_
      by_cases hpb : p b
      · simp [hpb, hsame b hb a ha hpb hpa]
      · simp [hpb]
    have hlen := hone (f a)
    rwa [hfilter, hl] at hlen

omit [DecidableEq β] in
/-- Where the keys are pairwise different and all elements with a property have the key of one of
them, it is the only one with the property. -/
theorem filter_eq_singleton_of_nodup (h : (l.map f).Nodup) {p : α → Bool} {a : α} (ha : a ∈ l)
    (hpa : p a = true) (hsame : ∀ b ∈ l, p b = true → f b = f a) : l.filter p = [a] := by
  induction l with
  | nil => cases ha
  | cons b l ih =>
    obtain ⟨hb, hl⟩ := List.nodup_cons.mp h
    have hrest : ∀ x ∈ l, p x = true → f x = f a := fun x hx =>
      hsame x (List.mem_cons_of_mem _ hx)
    rcases List.mem_cons.mp ha with rfl | ha
    · have hnone : l.filter p = [] := List.filter_eq_nil_iff.mpr fun x hx hpx =>
        hb (hrest x hx hpx ▸ List.mem_map_of_mem hx)
      rw [List.filter_cons_of_pos hpa, hnone]
    · have hpb : ¬ p b = true := fun hpb =>
        hb (hsame b List.mem_cons_self hpb ▸ List.mem_map_of_mem ha)
      rw [List.filter_cons_of_neg hpb]
      exact ih hl ha hrest

end Unique

/-- A step of task `i` exchanges its summand. -/
theorem sum_update {ι α M : Type*} [DecidableEq ι] [AddCommMonoid M] (s : Finset ι)
    (w : ι → α → M) (f : ι → α) {i : ι} (hi : i ∈ s) (x : α) :
    ∑ j ∈ s, w j (Function.update f i x j) + w i (f i) = ∑ j ∈ s, w j (f j) + w i x := by
  have hsum : ∀ g : ι → α, w i (g i) + ∑ j ∈ s.erase i, w j (g j) = ∑ j ∈ s, w j (g j) :=
    fun g => Finset.add_sum_erase s (fun j => w j (g j)) hi
  have hrest : ∑ j ∈ s.erase i, w j (Function.update f i x j) = ∑ j ∈ s.erase i, w j (f j) :=
    Finset.sum_congr rfl fun j hj => by rw [Function.update_of_ne (Finset.ne_of_mem_erase hj)]
  rw [← hsum, ← hsum f, hrest, Function.update_self, add_right_comm, add_comm (w i x),
    add_right_comm, add_comm (w i (f i))]

section Range

variable {α M : Type*} [AddCommMonoid M] {w : α → M} {f : ℕ → α} {n : ℕ}

/-- A step of one of many tasks exchanges its summand, where the tasks beyond the first `n` have
none before and after it. -/
theorem sum_range_update {i : ℕ} {x : α} (hf : n ≤ i → w (f i) = 0) (hx : n ≤ i → w x = 0) :
    ∑ j ∈ Finset.range n, w (Function.update f i x j) + w (f i) =
      ∑ j ∈ Finset.range n, w (f j) + w x := by
  by_cases hi : i < n
  · exact sum_update (Finset.range n) (fun _ => w) f (Finset.mem_range.mpr hi) x
  · have hrest : ∀ j ∈ Finset.range n, w (Function.update f i x j) = w (f j) := fun j hj => by
      have hne : j ≠ i := fun hji => hi (hji ▸ Finset.mem_range.mp hj)
      rw [Function.update_of_ne hne]
    rw [Finset.sum_congr rfl hrest, hf (Nat.le_of_not_lt hi), hx (Nat.le_of_not_lt hi)]

/-- A new task adds its summand. -/
theorem sum_range_spawn (x : α) :
    ∑ j ∈ Finset.range (n + 1), w (Function.update f n x j) =
      ∑ j ∈ Finset.range n, w (f j) + w x := by
  have hrest : ∀ j ∈ Finset.range n, w (Function.update f n x j) = w (f j) := fun j hj => by
    rw [Function.update_of_ne (Finset.mem_range.mp hj).ne]
  rw [Finset.sum_range_succ, Function.update_self, Finset.sum_congr rfl hrest]

end Range

/-- To count is to sum up ones. -/
theorem countP_eq_sum {α : Type*} (p : α → Bool) (l : List α) :
    l.countP p = (l.map fun a => (p a).toNat).sum := by
  induction l with
  | nil => rfl
  | cons a l ih =>
    rw [List.countP_cons, ih, List.map_cons, List.sum_cons, Nat.add_comm]
    cases p a <;> rfl

/-- Where no summand grows and one of them falls, the sum falls by as much. -/
theorem sum_add_le_sum {α : Type*} {f g : α → ℕ} {l : List α} {a : α} {n : ℕ} (ha : a ∈ l)
    (hle : ∀ b ∈ l, f b ≤ g b) (hlt : f a + n ≤ g a) : (l.map f).sum + n ≤ (l.map g).sum := by
  induction l with
  | nil => cases ha
  | cons b l ih =>
    obtain ⟨hb, hl⟩ := List.forall_mem_cons.mp hle
    rw [List.map_cons, List.map_cons, List.sum_cons, List.sum_cons]
    rcases List.mem_cons.mp ha with rfl | ha
    · have hrest := List.sum_le_sum hl
      omega
    · have hrest := ih ha hl
      omega

/-- The sum over a list, by its indices. -/
theorem sum_range_getElem? {α M : Type*} [AddCommMonoid M] (w : α → M) (l : List α) :
    ∑ i ∈ Finset.range l.length, (l[i]?.map w).getD 0 = (l.map w).sum := by
  induction l using List.reverseRecOn with
  | nil => rfl
  | append_singleton l a ih =>
    have hrest : ∀ i ∈ Finset.range l.length, ((l ++ [a])[i]?.map w).getD 0 =
        (l[i]?.map w).getD 0 := fun i hi => by
      rw [List.getElem?_append_left (Finset.mem_range.mp hi)]
    rw [List.length_append, List.length_singleton, Finset.sum_range_succ,
      Finset.sum_congr rfl hrest, ih]
    simp

end Collections
