import Mathlib.Data.Set.Finite.Lattice

/-!
# Bounded paths with finite branching

A path is a list that grows at its end, each new element being related to the path so far.  Where
every path has finitely many extensions and no path is longer than a bound, there are finitely many
paths.
-/

namespace Paths

variable {α : Type*} {next : List α → α → Prop}

/-- The paths of the relation `next` between a path and an element that may extend it. -/
inductive IsPath (next : List α → α → Prop) : List α → Prop
  /-- The empty path. -/
  | nil : IsPath next []
  /-- A path and one more element. -/
  | snoc {p : List α} {a : α} (hp : IsPath next p) (ha : next p a) : IsPath next (p ++ [a])

/-- The paths of one length are finitely many. -/
theorem finite_isPath_length_eq (hfin : ∀ p, {a | next p a}.Finite) (n : ℕ) :
    {p | IsPath next p ∧ p.length = n}.Finite := by
  induction n with
  | zero =>
    apply (Set.finite_singleton []).subset
    rintro p ⟨-, hlen⟩
    exact List.length_eq_zero_iff.mp hlen
  | succ n ih =>
    apply (ih.biUnion fun p _ => (hfin p).image fun a => p ++ [a]).subset
    rintro q ⟨hq, hlen⟩
    cases hq with
    | nil => cases hlen
    | @snoc p a hp ha =>
      have hp' : p.length = n := by simpa using hlen
      exact Set.mem_biUnion (x := p) ⟨hp, hp'⟩ ⟨a, ha, rfl⟩

/-- With finite branching and a bound on the length there are finitely many paths. -/
theorem finite_isPath (hfin : ∀ p, {a | next p a}.Finite) {K : ℕ}
    (hK : ∀ p, IsPath next p → p.length ≤ K) : {p | IsPath next p}.Finite := by
  apply ((Set.finite_le_nat K).biUnion fun n _ => finite_isPath_length_eq hfin n).subset
  intro p hp
  exact Set.mem_biUnion (x := p.length) (hK p hp) ⟨hp, rfl⟩

end Paths
