import Mathlib.Tactic.Common
import Mathlib.Data.List.Basic

/-!
# Transition systems with guarded runs

A transition system is given by its initial states and a partial step function: the action names
the task that moves and every choice the environment makes for it, so that a run is a list of
actions and can be executed.  `Reachable M P s` says that some run leads to `s` all of whose steps
meet the guard `P`, a condition on the state before the step and on the action taken there.

The results of this file are the induction rules that the safety proofs of a system use: a
property that holds initially and is kept by every guarded step holds in every reachable state, it
may use invariants that are already known, and a run of a system projects to a run of any system
that its steps simulate.
-/

namespace Transition

variable {σ τ α β : Type*}

/-- A transition system: its initial states and its step function. -/
structure System (σ α : Type*) where
  /-- The states a run may start in. -/
  init : σ → Prop
  /-- The state after an action, or `none` where the action is not enabled. -/
  step : σ → α → Option σ

namespace System

/-- The run of a list of actions, or `none` as soon as one of them is not enabled or fails the
test. -/
def exec (M : System σ α) (test : σ → α → Bool) : σ → List α → Option σ
  | s, [] => some s
  | s, a :: as => if test s a then (M.step s a).bind fun s' => M.exec test s' as else none

/-- The states reached by runs whose steps all meet the guard `P`. -/
inductive Reachable (M : System σ α) (P : σ → α → Prop) : σ → Prop
  /-- A run may stop where it starts. -/
  | init {s : σ} (h : M.init s) : Reachable M P s
  /-- A run may be extended by one guarded step. -/
  | step {s s' : σ} {a : α} (h : Reachable M P s) (hP : P s a) (hs : M.step s a = some s') :
      Reachable M P s'

/-- The guard that excludes no step. -/
def anyStep (_ : σ) (_ : α) : Prop := True

variable {M : System σ α} {P Q : σ → α → Prop}

/-- A property of the initial states that every guarded step keeps holds in every reachable
state; the step may use that the state before it is reachable. -/
theorem Reachable.invariant {I : σ → Prop} (hinit : ∀ s, M.init s → I s)
    (hstep : ∀ s a s', M.Reachable P s → I s → P s a → M.step s a = some s' → I s')
    {s : σ} (h : M.Reachable P s) : I s := by
  induction h with
  | init h => exact hinit _ h
  | step h hP hs ih => exact hstep _ _ _ h ih hP hs

/-- Weakening the guard keeps the reachable states. -/
theorem Reachable.mono (hPQ : ∀ s a, P s a → Q s a) {s : σ} (h : M.Reachable P s) :
    M.Reachable Q s := by
  induction h with
  | init h => exact .init h
  | step _ hP hs ih => exact .step ih (hPQ _ _ hP) hs

/-- What is observed at the end of an execution whose test implies the guard is observed in a state
of a guarded run. -/
theorem exists_reachable_of_exec {γ : Type*} (test : σ → α → Bool)
    (htest : ∀ s a, test s a = true → P s a) {s : σ} (h : M.Reachable P s) (as : List α) (f : σ → γ)
    {x : γ} (hs : (M.exec test s as).map f = some x) :
    ∃ t, M.Reachable P t ∧ f t = x := by
  induction as generalizing s with
  | nil => exact ⟨s, h, Option.some.inj hs⟩
  | cons a as ih =>
    simp only [exec] at hs
    split at hs
    · rename_i hok
      cases hstep : M.step s a with
      | none => simp [hstep] at hs
      | some s' =>
        rw [hstep] at hs
        exact ih (.step h (htest s a hok) hstep) hs
    · cases hs

/-- Simulation by projection: where every step of `M` is a step of `N` between the projected
states or leaves the projection alone, the projections of the reachable states of `M` are
reachable in `N`. -/
theorem Reachable.map {N : System τ β} {R : τ → β → Prop} (f : σ → τ) (g : α → Option β)
    (hinit : ∀ s, M.init s → N.init (f s))
    (hstep : ∀ s a s', P s a → M.step s a = some s' →
      match g a with
      | some b => R (f s) b ∧ N.step (f s) b = some (f s')
      | none => f s' = f s)
    {s : σ} (h : M.Reachable P s) : N.Reachable R (f s) := by
  induction h with
  | init h => exact .init (hinit _ h)
  | @step s s' a _ hP hs ih =>
    have hsim := hstep _ _ _ hP hs
    cases hg : g a with
    | none =>
      rw [hg] at hsim
      exact hsim ▸ ih
    | some b =>
      rw [hg] at hsim
      exact .step ih hsim.1 hsim.2

end System

end Transition
