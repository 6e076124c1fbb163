import Mathlib.Algebra.GroupWithZero.Nat
import UnsBridge.Lib.Transition

/-!
# Runs as lists of actions

`System.run` executes a list of actions, and what it leads to is reachable.  Rules for the steps of
a run give bounds on how long it is and on what it does: potentials, deadlines and ranks.

`Isolates` says step by step that the rest of a system has no influence on a part of it.  Then the
rest can be deleted from a run, and two runs that differ in the rest alone agree on the part
(`Isolates.run_filter`, `Isolates.view_eq`).
-/

namespace Transition

variable {σ ν α : Type*}

namespace System

/-- The state after a list of actions, or `none` as soon as one of them is not enabled. -/
def run (M : System σ α) : σ → List α → Option σ
  | s, [] => some s
  | s, a :: as => (M.step s a).bind fun s' => M.run s' as

/-- The number of steps of a run that pass a test. -/
def tally (M : System σ α) (test : σ → α → Bool) : σ → List α → ℕ
  | _, [] => 0
  | s, a :: as =>
    (match M.step s a with
      | some s' => M.tally test s' as
      | none => 0) + (test s a).toNat

variable {M : System σ α} {s s' t : σ} {a : α} {as bs : List α}

/-- The first step of a run counts if it passes the test. -/
theorem tally_cons (test : σ → α → Bool) (h : M.step s a = some s') :
    M.tally test s (a :: as) = M.tally test s' as + (test s a).toNat := by
  rw [tally, h]

@[simp] theorem run_nil : M.run s [] = some s := rfl

/-- A run that begins with an enabled action. -/
theorem run_cons (h : M.step s a = some s') : M.run s (a :: as) = M.run s' as := by
  rw [run, h, Option.bind_some]

/-- The first action of a run is enabled. -/
theorem run_cons_eq_some_iff :
    M.run s (a :: as) = some t ↔ ∃ s', M.step s a = some s' ∧ M.run s' as = some t := by
  rw [run, Option.bind_eq_some_iff]

/-- What a run leads to from a reachable state is reachable. -/
theorem Reachable.run (h : M.Reachable System.anyStep s) (hrun : M.run s as = some t) :
    M.Reachable System.anyStep t := by
  induction as generalizing s with
  | nil =>
    obtain rfl := Option.some.inj hrun
    exact h
  | cons a as ih =>
    obtain ⟨s', hstep, hrun⟩ := run_cons_eq_some_iff.mp hrun
    exact ih (h.step trivial hstep) hrun

/-- Potentials: if a step uses up what it costs, but for what it brings in, then so does a run. -/
theorem Reachable.run_potential (μ : σ → ℕ) (cost gain : α → ℕ)
    (hstep : ∀ s a s', M.Reachable System.anyStep s → M.step s a = some s' →
      μ s' + cost a ≤ μ s + gain a)
    (h : M.Reachable System.anyStep s) (hrun : M.run s as = some t) :
    μ t + (as.map cost).sum ≤ μ s + (as.map gain).sum := by
  induction as generalizing s with
  | nil =>
    obtain rfl := Option.some.inj hrun
    exact Nat.le_refl _
  | cons a as ih =>
    obtain ⟨s', hs, hrun⟩ := run_cons_eq_some_iff.mp hrun
    have hfirst := hstep s a s' h hs
    have hrest := ih (h.step trivial hs) hrun
    simp only [List.map_cons, List.sum_cons]
    omega

/-- Deadlines: what is said of a state and of the actions that are still to come holds at the end of
a run, where none is to come any more, if every step keeps it. -/
theorem exec_remaining (I : σ → List α → Prop) (test : σ → α → Bool)
    (hstep : ∀ s a as s', test s a = true → M.step s a = some s' → I s (a :: as) → I s' as)
    (h : I s as) (hrun : M.exec test s as = some t) : I t [] := by
  induction as generalizing s with
  | nil =>
    obtain rfl := Option.some.inj hrun
    exact h
  | cons a as ih =>
    simp only [exec] at hrun
    split at hrun
    · rename_i htest
      obtain ⟨s', hs, hrun⟩ := Option.bind_eq_some_iff.mp hrun
      exact ih (hstep s a as s' htest hs h) hrun
    · cases hrun

/-- A part of a system that the rest does not influence, seen through `view`: the actions that it
does not see leave it alone, and those that it sees are enabled, and change it, in the same way
wherever it looks the same. -/
structure Isolates (M : System σ α) (view : σ → ν) (sees : α → Bool) : Prop where
  unseen : ∀ s a s', M.Reachable anyStep s → sees a = false → M.step s a = some s' →
    view s' = view s
  seen : ∀ s t a s', M.Reachable anyStep s → M.Reachable anyStep t → view s = view t →
    sees a = true → M.step s a = some s' → ∃ t', M.step t a = some t' ∧ view s' = view t'

/-- Without the actions that are not seen, a run takes the same course. -/
theorem Isolates.run_filter {view : σ → ν} {sees : α → Bool} (h : M.Isolates view sees)
    (hs : M.Reachable anyStep s) (ht : M.Reachable anyStep t) (hview : view s = view t)
    (hrun : M.run s as = some s') :
    ∃ t', M.run t (as.filter sees) = some t' ∧ view s' = view t' := by
  induction as generalizing s t with
  | nil =>
    obtain rfl := Option.some.inj hrun
    exact ⟨t, rfl, hview⟩
  | cons a as ih =>
    obtain ⟨r, hstep, hrun⟩ := run_cons_eq_some_iff.mp hrun
    have hr : M.Reachable anyStep r := hs.step trivial hstep
    cases hsees : sees a with
    | false =>
      rw [List.filter_cons_of_neg (by simp [hsees])]
      exact ih hr ht ((h.unseen s a r hs hsees hstep).trans hview) hrun
    | true =>
      obtain ⟨r', hstep', hview'⟩ := h.seen s t a r hs ht hview hsees hstep
      rw [List.filter_cons_of_pos hsees, run_cons hstep']
      exact ih hr (ht.step trivial hstep') hview' hrun

/-- Two runs in which the part sees the same actions leave it in the same state. -/
theorem Isolates.view_eq {view : σ → ν} {sees : α → Bool} (h : M.Isolates view sees)
    (hs : M.Reachable anyStep s) {s₁ s₂ : σ} (h₁ : M.run s as = some s₁)
    (h₂ : M.run s bs = some s₂) (hsame : as.filter sees = bs.filter sees) :
    view s₁ = view s₂ := by
  obtain ⟨t, ht, hview₁⟩ := h.run_filter hs hs rfl h₁
  obtain ⟨t', ht', hview₂⟩ := h.run_filter hs hs rfl h₂
  rw [hsame, ht', Option.some.injEq] at ht
  rw [hview₁, hview₂, ht]

end System

end Transition
