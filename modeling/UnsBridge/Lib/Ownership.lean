import Mathlib.Data.Set.Insert
import Mathlib.Data.Sum.Basic

/-!
# Exclusive ownership

Each task of a system owns at most one token of a kind: a handle, a name, a lock.  Tokens are issued
once, may be let go of and passed on.  `Exclusive` says that no token has two owners; every
`Exchange` keeps it.

`Served` says that every token of a set has an owner: whoever lets go of one sees to it that the
token has left the set.

`owners` is the ownership of two families of tasks, each of which has a phase that says what the
task owns.
-/

namespace Ownership

open Function

variable {ι K : Type*} {own own' : ι → Option K} {issued issued' : Set K}

/-- No token has two owners, and owned tokens have been issued. -/
structure Exclusive (own : ι → Option K) (issued : Set K) : Prop where
  unique : ∀ a b k, own a = some k → own b = some k → a = b
  issued : ∀ a k, own a = some k → k ∈ issued

/-- What a step may do to the tokens. -/
inductive Exchange [DecidableEq ι] (own : ι → Option K) (issued : Set K) (own' : ι → Option K)
    (issued' : Set K) : Prop
  /-- Nothing. -/
  | keep (hown : own' = own)
  /-- A task goes on and holds what it held. -/
  | hold (a : ι) (k : K) (hown : own' = update own a (some k)) (hk : own a = some k)
  /-- A task lets go of its token. -/
  | release (a : ι) (hown : own' = update own a none)
  /-- A task is issued a new token. -/
  | issue (a : ι) (k : K) (hown : own' = update own a (some k)) (hnew : k ∉ issued)
      (hissued : k ∈ issued')
  /-- A task passes its token on. -/
  | pass (a b : ι) (k : K) (hown : own' = update (update own a none) b (some k))
      (hk : own a = some k)

/-- Every exchange keeps the ownership exclusive. -/
theorem Exclusive.exchange [DecidableEq ι] (h : Exclusive own issued) (hissued : issued ⊆ issued')
    (hstep : Exchange own issued own' issued') : Exclusive own' issued' := by
  have hkept : (∀ a n, own' a = some n → own a = some n) → Exclusive own' issued' := fun hback =>
    ⟨fun a b n ha hb => h.unique a b n (hback a n ha) (hback b n hb),
      fun a n ha => hissued (h.issued a n (hback a n ha))⟩
  -- one token gets one owner, and the others had theirs before
  have hmoved : ∀ {b : ι} {k : K}, k ∈ issued' → (∀ a, own' a = some k → a = b) →
      (∀ a n, own' a = some n → own a = some n ∨ n = k) → Exclusive own' issued' := by
    refine fun hk honly hback => ⟨fun a c n ha hc => ?_, fun a n ha => ?_⟩
    · rcases hback a n ha with ha' | rfl
      · rcases hback c n hc with hc' | rfl
        · exact h.unique a c n ha' hc'
        · exact (honly a ha).trans (honly c hc).symm
      · exact (honly a ha).trans (honly c hc).symm
    · rcases hback a n ha with ha | rfl
      · exact hissued (h.issued a n ha)
      · exact hk
  cases hstep with
  | keep hown => exact hkept fun a n ha => hown ▸ ha
  | hold b k hown hk =>
    exact hkept fun a n ha => by rwa [hown, update_eq_self_iff.mpr hk.symm] at ha
  | release b hown =>
    refine hkept fun a n ha => ?_
    by_cases hab : a = b
    · simp [hown, hab] at ha
    · simpa [hown, hab] using ha
  | issue b k hown hnew hk =>
    refine hmoved (b := b) hk (fun a ha => ?_) fun a n ha => ?_
    · by_contra hab
      exact hnew (h.issued a k (by simpa [hown, hab] using ha))
    · by_cases hab : a = b
      · exact Or.inr (by simpa [hown, hab, eq_comm] using ha)
      · exact Or.inl (by simpa [hown, hab] using ha)
  | pass c b k hown hk =>
    have hback : ∀ a n, a ≠ b → own' a = some n → a ≠ c ∧ own a = some n := by
      intro a n hab ha
      by_cases hac : a = c
      · subst hac
        simp [hown, hab] at ha
      · exact ⟨hac, by simpa [hown, hab, hac] using ha⟩
    refine hmoved (b := b) (hissued (h.issued c k hk)) (fun a ha => ?_) fun a n ha => ?_
    · by_contra hab
      obtain ⟨hac, ha⟩ := hback a k hab ha
      exact hac (h.unique a c k ha hk)
    · by_cases hab : a = b
      · exact Or.inr (by simpa [hown, hab, eq_comm] using ha)
      · exact Or.inl (hback a n hab ha).2

/-- Every token of a set has an owner. -/
def Served (own : ι → Option K) (ks : Set K) : Prop := ∀ k ∈ ks, ∃ a, own a = some k

section Served

variable {ks ks' : Set K}

/-- An exclusive owner is the only one. -/
theorem Served.existsUnique (h : Served own ks) (hown : Exclusive own issued) {k : K}
    (hk : k ∈ ks) : ∃! a, own a = some k := by
  obtain ⟨a, ha⟩ := h k hk
  exact ⟨a, ha, fun b hb => hown.unique b a k hb ha⟩

/-- Tokens may leave the set. -/
theorem Served.mono (h : Served own ks) (hks : ks' ⊆ ks) : Served own ks' :=
  fun k hk => h k (hks hk)

variable [DecidableEq ι] {a b : ι} {x : Option K} {k : K}

/-- A task goes on.  It owns the tokens that enter, and the token that it lets go of leaves. -/
theorem Served.update (h : Served own ks) (hown : own' = Function.update own a x)
    (henter : ∀ k ∈ ks', k ∈ ks ∨ x = some k) (hleave : ∀ k ∈ ks', own a = some k → x = some k) :
    Served own' ks' := by
  intro k hk
  rcases henter k hk with hold | hx
  · obtain ⟨b, hb⟩ := h k hold
    by_cases hba : b = a
    · rw [hba] at hb
      exact ⟨a, by rw [hown, update_self, hleave k hk hb]⟩
    · exact ⟨b, by rw [hown, update_of_ne hba, hb]⟩
  · exact ⟨a, by rw [hown, update_self, hx]⟩

/-- A task goes on that owned nothing. -/
theorem Served.update_of_eq_none (h : Served own ks) (hown : own' = Function.update own a x)
    (ha : own a = none) (henter : ∀ k ∈ ks', k ∈ ks ∨ x = some k) : Served own' ks' :=
  h.update hown henter fun k _ hk => absurd hk (by simp [ha])

/-- A task passes its token on to one that owned nothing. -/
theorem Served.pass (h : Served own ks)
    (hown : own' = Function.update (Function.update own a none) b (some k)) (ha : own a = some k)
    (hb : own b = none) : Served own' ks := by
  intro n hn
  by_cases hnk : n = k
  · exact ⟨b, by rw [hown, update_self, hnk]⟩
  · obtain ⟨c, hc⟩ := h n hn
    have hca : c ≠ a := by
      rintro rfl
      exact hnk (Option.some.inj (hc.symm.trans ha))
    have hcb : c ≠ b := by
      rintro rfl
      simp [hb] at hc
    exact ⟨c, by rw [hown, update_of_ne hcb, update_of_ne hca, hc]⟩

end Served

section Owners

variable {α β Φ Ψ : Type*} (F : Φ → Option K) (G : Ψ → Option K) (f : α → Φ) (g : β → Ψ)

/-- What the tasks of two families own. -/
def owners : α ⊕ β → Option K := Sum.elim (F ∘ f) (G ∘ g)

variable [DecidableEq α] [DecidableEq β]

/-- A task of the first family goes on. -/
theorem owners_left (i : α) (phase : Φ) :
    owners F G (update f i phase) g = update (owners F G f g) (.inl i) (F phase) := by
  simp only [owners, comp_update, Sum.update_elim_inl]

/-- A task of the second family goes on. -/
theorem owners_right (k : β) (phase : Ψ) :
    owners F G f (update g k phase) = update (owners F G f g) (.inr k) (G phase) := by
  simp only [owners, comp_update, Sum.update_elim_inr]

end Owners

end Ownership
