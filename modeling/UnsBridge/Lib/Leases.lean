import Mathlib.Data.Set.Lattice

/-!
# A registry of leased resources

A registry holds keys, and each key stands for a resource that has to be acquired while its key
lives and released after it has left.  Acquiring and releasing take time and are done by tasks, so
that a key may leave the registry before, while or after its resource is acquired.  The duties of
the tasks close these gaps: a task that has acquired a resource verifies that its key still lives
and otherwise releases it, and whoever removes a key releases its resource.

`State` has the live keys, the held resources, the keys used so far and the duties; `Step` lists
what the tasks may do.  The invariant `Consistent` holds in every run, and in a state without duties
the held resources are those of the live keys, `Consistent.held_eq_live`.
-/

namespace Leases

variable {K : Type*}

/-- What a task is about to do for a key. -/
inductive Duty where
  /-- Acquire the resource. -/
  | acquire
  /-- Check that the key still lives. -/
  | verify
  /-- Release the resource. -/
  | release
  deriving DecidableEq

/-- The state of a registry and of the tasks that work for it. -/
structure State (K : Type*) where
  live : Set K
  held : Set K
  used : Set K
  duties : Set (Duty × K)

/-- Some duties may be given up, and others are taken on. -/
structure Trades (gone new d d' : Set (Duty × K)) : Prop where
  kept : d ⊆ d' ∪ gone
  back : d' ⊆ d ∪ new
  new : new ⊆ d'

section Trades

variable {gone new d d' : Set (Duty × K)}

/-- Duties that others hold do not matter. -/
theorem Trades.union (h : Trades gone new d d') (e : Set (Duty × K)) :
    Trades gone new (d ∪ e) (d' ∪ e) := by
  refine ⟨?_, ?_, h.new.trans Set.subset_union_left⟩
  · rintro x (hx | hx)
    · exact (h.kept hx).imp Or.inl id
    · exact Or.inl (Or.inr hx)
  · rintro x (hx | hx)
    · exact (h.back hx).imp Or.inl id
    · exact Or.inl (Or.inr hx)

/-- One task of a family exchanges its duties. -/
theorem Trades.update {ι : Type*} [DecidableEq ι] (f : ι → Set (Duty × K)) (i : ι)
    (new : Set (Duty × K)) : Trades (f i) new (⋃ j, f j) (⋃ j, Function.update f i new j) := by
  refine ⟨fun x hx => ?_, fun x hx => ?_, fun x hx => ?_⟩
  · obtain ⟨j, hj⟩ := Set.mem_iUnion.mp hx
    by_cases hji : j = i
    · exact Or.inr (hji ▸ hj)
    · exact Or.inl (Set.mem_iUnion.mpr ⟨j, by rwa [Function.update_of_ne hji]⟩)
  · obtain ⟨j, hj⟩ := Set.mem_iUnion.mp hx
    by_cases hji : j = i
    · subst hji
      exact Or.inr (by simpa using hj)
    · rw [Function.update_of_ne hji] at hj
      exact Or.inl (Set.mem_iUnion.mpr ⟨j, hj⟩)
  · exact Set.mem_iUnion.mpr ⟨i, by simpa using hx⟩

/-- Duties that are given up and taken on again are kept. -/
theorem Trades.cancel {gone' new' : Set (Duty × K)} (h : Trades gone new d d') (hd : gone ⊆ d)
    (hgone : gone ⊆ gone' ∪ new) (hnew : new ⊆ new' ∪ gone) (hnew' : new' ⊆ new) :
    Trades gone' new' d d' := by
  refine ⟨fun x hx => ?_, fun x hx => ?_, hnew'.trans h.new⟩
  · rcases h.kept hx with hx | hx
    · exact Or.inl hx
    · exact (hgone hx).elim Or.inr fun hx => Or.inl (h.new hx)
  · rcases h.back hx with hx | hx
    · exact Or.inl hx
    · exact (hnew hx).elim Or.inr fun hx => Or.inl (hd hx)

/-- Without an exchange the duties are the same. -/
theorem Trades.eq (h : Trades ∅ ∅ d d') : d' = d := by
  apply Set.Subset.antisymm
  · simpa using h.back
  · simpa using h.kept

end Trades

/-- The duties to release the resources of some keys. -/
def releases (ks : Set K) : Set (Duty × K) := (fun k => (.release, k)) '' ks

@[simp] theorem mem_releases {ks : Set K} {d : Duty} {k : K} :
    (d, k) ∈ releases ks ↔ d = .release ∧ k ∈ ks := by
  simp [releases, eq_comm, and_comm]

/-- What the tasks may do. -/
inductive Step (s s' : State K) : Prop
  /-- A new key enters, and others may have to leave for it. -/
  | enter (k : K) (evicted : Set K) (hfresh : k ∉ s.used) (hevicted : evicted ⊆ s.live)
      (hlive : s'.live = insert k (s.live \ evicted)) (hheld : s'.held = s.held)
      (hused : s'.used = insert k s.used)
      (hduties : Trades ∅ (insert (.acquire, k) (releases evicted)) s.duties s'.duties)
  /-- The resource of a key is acquired, by the only task that had to. -/
  | acquire (k : K) (hduty : (.acquire, k) ∈ s.duties) (hlive : s'.live = s.live)
      (hheld : s'.held = insert k s.held) (hused : s'.used = s.used)
      (honly : (.acquire, k) ∉ s'.duties)
      (hduties : Trades {(.acquire, k)} {(.verify, k)} s.duties s'.duties)
  /-- The resource of a key cannot be acquired, and the key leaves. -/
  | giveUp (k : K) (hduty : (.acquire, k) ∈ s.duties) (hlive : s'.live = s.live \ {k})
      (hheld : s'.held = s.held) (hused : s'.used = s.used)
      (hduties : Trades {(.acquire, k)} ∅ s.duties s'.duties)
  /-- The key of an acquired resource still lives. -/
  | confirm (k : K) (hk : k ∈ s.live) (hlive : s'.live = s.live) (hheld : s'.held = s.held)
      (hused : s'.used = s.used) (hduties : Trades {(.verify, k)} ∅ s.duties s'.duties)
  /-- The key of an acquired resource has left. -/
  | revoke (k : K) (hduty : (.verify, k) ∈ s.duties) (hk : k ∉ s.live) (hlive : s'.live = s.live)
      (hheld : s'.held = s.held) (hused : s'.used = s.used)
      (hduties : Trades {(.verify, k)} {(.release, k)} s.duties s'.duties)
  /-- The resource of a key that has left is released. -/
  | release (k : K) (hduty : (.release, k) ∈ s.duties) (hlive : s'.live = s.live)
      (hheld : s'.held = s.held \ {k}) (hused : s'.used = s.used)
      (hduties : Trades {(.release, k)} ∅ s.duties s'.duties)
  /-- Keys leave. -/
  | leave (ks : Set K) (hks : ks ⊆ s.live) (hlive : s'.live = s.live \ ks)
      (hheld : s'.held = s.held) (hused : s'.used = s.used)
      (hduties : Trades ∅ (releases ks) s.duties s'.duties)

/-- Keys and resources belong together, up to the duties of the tasks. -/
structure Consistent (s : State K) : Prop where
  live_used : ∀ k ∈ s.live, k ∈ s.used
  duty_used : ∀ d k, (d, k) ∈ s.duties → k ∈ s.used
  live : ∀ k ∈ s.live, k ∈ s.held ∨ (.acquire, k) ∈ s.duties
  held : ∀ k ∈ s.held, k ∈ s.live ∨ (.verify, k) ∈ s.duties ∨ (.release, k) ∈ s.duties
  release : ∀ k, (.release, k) ∈ s.duties → k ∉ s.live
  acquire : ∀ k, (.acquire, k) ∈ s.duties → k ∉ s.held

variable {s s' : State K}

/-- A held resource is one of a used key. -/
theorem Consistent.held_used (h : Consistent s) {k : K} (hk : k ∈ s.held) : k ∈ s.used := by
  rcases h.held k hk with hk | hk | hk
  · exact h.live_used k hk
  · exact h.duty_used _ k hk
  · exact h.duty_used _ k hk

namespace Step

/-- Live keys stay used ones. -/
theorem live_used (h : Consistent s) (hstep : Step s s') : ∀ k ∈ s'.live, k ∈ s'.used := by
  cases hstep with
  | enter k evicted hfresh hevicted hlive hheld hused =>
    intro k' hk'
    rw [hlive] at hk'
    rw [hused]
    exact hk'.imp id fun hk' => h.live_used k' hk'.1
  | acquire k hduty hlive hheld hused => exact hlive ▸ hused ▸ h.live_used
  | giveUp k hduty hlive hheld hused =>
    intro k' hk'
    rw [hlive] at hk'
    exact hused ▸ h.live_used k' hk'.1
  | confirm k hk hlive hheld hused => exact hlive ▸ hused ▸ h.live_used
  | revoke k hduty hk hlive hheld hused => exact hlive ▸ hused ▸ h.live_used
  | release k hduty hlive hheld hused => exact hlive ▸ hused ▸ h.live_used
  | leave ks hks hlive hheld hused =>
    intro k' hk'
    rw [hlive] at hk'
    exact hused ▸ h.live_used k' hk'.1

/-- The duties concern used keys. -/
theorem duty_used (h : Consistent s) (hstep : Step s s') :
    ∀ d k, (d, k) ∈ s'.duties → k ∈ s'.used := by
  intro d k' hd
  cases hstep with
  | enter k evicted hfresh hevicted hlive hheld hused hduties =>
    rw [hused]
    rcases hduties.back hd with hd | hd | hd
    · exact Or.inr (h.duty_used d k' hd)
    · exact Or.inl (Prod.mk.inj hd).2
    · exact Or.inr (h.live_used k' (hevicted (mem_releases.mp hd).2))
  | acquire k hduty hlive hheld hused honly hduties =>
    rw [hused]
    rcases hduties.back hd with hd | hd
    · exact h.duty_used d k' hd
    · exact (Prod.mk.inj hd).2 ▸ h.duty_used _ k hduty
  | giveUp k hduty hlive hheld hused hduties =>
    exact hused ▸ h.duty_used d k' ((hduties.back hd).resolve_right id)
  | confirm k hk hlive hheld hused hduties =>
    exact hused ▸ h.duty_used d k' ((hduties.back hd).resolve_right id)
  | revoke k hduty hk hlive hheld hused hduties =>
    rw [hused]
    rcases hduties.back hd with hd | hd
    · exact h.duty_used d k' hd
    · exact (Prod.mk.inj hd).2 ▸ h.duty_used _ k hduty
  | release k hduty hlive hheld hused hduties =>
    exact hused ▸ h.duty_used d k' ((hduties.back hd).resolve_right id)
  | leave ks hks hlive hheld hused hduties =>
    rw [hused]
    rcases hduties.back hd with hd | hd
    · exact h.duty_used d k' hd
    · exact h.live_used k' (hks (mem_releases.mp hd).2)

/-- The resource of a live key is held or about to be acquired. -/
theorem live (h : Consistent s) (hstep : Step s s') :
    ∀ k ∈ s'.live, k ∈ s'.held ∨ (.acquire, k) ∈ s'.duties := by
  intro k' hk'
  cases hstep with
  | enter k evicted hfresh hevicted hlive hheld hused hduties =>
    rw [hlive] at hk'
    rw [hheld]
    rcases hk' with rfl | hk'
    · exact Or.inr (hduties.new (Or.inl rfl))
    · exact (h.live k' hk'.1).imp id fun hd => (hduties.kept hd).resolve_right id
  | acquire k hduty hlive hheld hused honly hduties =>
    rw [hheld]
    rcases h.live k' (hlive ▸ hk') with hk' | hd
    · exact Or.inl (Or.inr hk')
    · rcases hduties.kept hd with hd | hd
      · exact Or.inr hd
      · exact Or.inl (Or.inl (Prod.mk.inj hd).2)
  | giveUp k hduty hlive hheld hused hduties =>
    rw [hlive] at hk'
    rw [hheld]
    exact (h.live k' hk'.1).imp id fun hd =>
      (hduties.kept hd).resolve_right fun heq => hk'.2 (Prod.mk.inj heq).2
  | confirm k hk hlive hheld hused hduties =>
    rw [hheld]
    exact (h.live k' (hlive ▸ hk')).imp id fun hd => (hduties.kept hd).resolve_right (by simp)
  | revoke k hduty hk hlive hheld hused hduties =>
    rw [hheld]
    exact (h.live k' (hlive ▸ hk')).imp id fun hd => (hduties.kept hd).resolve_right (by simp)
  | release k hduty hlive hheld hused hduties =>
    rw [hlive] at hk'
    rw [hheld]
    rcases h.live k' hk' with hheld' | hd
    · exact Or.inl ⟨hheld', fun heq => h.release k hduty (heq ▸ hk')⟩
    · exact Or.inr ((hduties.kept hd).resolve_right (by simp))
  | leave ks hks hlive hheld hused hduties =>
    rw [hlive] at hk'
    rw [hheld]
    exact (h.live k' hk'.1).imp id fun hd => (hduties.kept hd).resolve_right id

/-- A held resource is that of a live key, or about to be verified or released. -/
theorem held (h : Consistent s) (hstep : Step s s') :
    ∀ k ∈ s'.held, k ∈ s'.live ∨ (.verify, k) ∈ s'.duties ∨ (.release, k) ∈ s'.duties := by
  intro k' hk'
  cases hstep with
  | enter k evicted hfresh hevicted hlive hheld hused hduties =>
    rw [hlive]
    rcases h.held k' (hheld ▸ hk') with hk | hd | hd
    · by_cases hev : k' ∈ evicted
      · exact Or.inr (Or.inr (hduties.new (Or.inr (mem_releases.mpr ⟨rfl, hev⟩))))
      · exact Or.inl (Or.inr ⟨hk, hev⟩)
    · exact Or.inr (Or.inl ((hduties.kept hd).resolve_right id))
    · exact Or.inr (Or.inr ((hduties.kept hd).resolve_right id))
  | acquire k hduty hlive hheld hused honly hduties =>
    rw [hheld] at hk'
    rw [hlive]
    rcases hk' with rfl | hk'
    · exact Or.inr (Or.inl (hduties.new rfl))
    · rcases h.held k' hk' with hk | hd | hd
      · exact Or.inl hk
      · exact Or.inr (Or.inl ((hduties.kept hd).resolve_right (by simp)))
      · exact Or.inr (Or.inr ((hduties.kept hd).resolve_right (by simp)))
  | giveUp k hduty hlive hheld hused hduties =>
    rw [hheld] at hk'
    rw [hlive]
    rcases h.held k' hk' with hk | hd | hd
    · exact Or.inl ⟨hk, fun heq => h.acquire k hduty (heq ▸ hk')⟩
    · exact Or.inr (Or.inl ((hduties.kept hd).resolve_right (by simp)))
    · exact Or.inr (Or.inr ((hduties.kept hd).resolve_right (by simp)))
  | confirm k hk hlive hheld hused hduties =>
    rw [hlive]
    rcases h.held k' (hheld ▸ hk') with hk' | hd | hd
    · exact Or.inl hk'
    · rcases hduties.kept hd with hd | hd
      · exact Or.inr (Or.inl hd)
      · exact Or.inl ((Prod.mk.inj hd).2 ▸ hk)
    · exact Or.inr (Or.inr ((hduties.kept hd).resolve_right (by simp)))
  | revoke k hduty hk hlive hheld hused hduties =>
    rw [hlive]
    rcases h.held k' (hheld ▸ hk') with hk' | hd | hd
    · exact Or.inl hk'
    · rcases hduties.kept hd with hd | hd
      · exact Or.inr (Or.inl hd)
      · exact Or.inr (Or.inr (hduties.new (by simpa using (Prod.mk.inj hd).2)))
    · exact Or.inr (Or.inr ((hduties.kept hd).resolve_right (by simp)))
  | release k hduty hlive hheld hused hduties =>
    rw [hheld] at hk'
    rw [hlive]
    rcases h.held k' hk'.1 with hk | hd | hd
    · exact Or.inl hk
    · exact Or.inr (Or.inl ((hduties.kept hd).resolve_right (by simp)))
    · exact Or.inr (Or.inr ((hduties.kept hd).resolve_right fun heq => hk'.2 (Prod.mk.inj heq).2))
  | leave ks hks hlive hheld hused hduties =>
    rw [hlive]
    rcases h.held k' (hheld ▸ hk') with hk | hd | hd
    · by_cases hleft : k' ∈ ks
      · exact Or.inr (Or.inr (hduties.new (mem_releases.mpr ⟨rfl, hleft⟩)))
      · exact Or.inl ⟨hk, hleft⟩
    · exact Or.inr (Or.inl ((hduties.kept hd).resolve_right id))
    · exact Or.inr (Or.inr ((hduties.kept hd).resolve_right id))

/-- Only resources of keys that have left are about to be released. -/
theorem release_notMem (h : Consistent s) (hstep : Step s s') :
    ∀ k, (.release, k) ∈ s'.duties → k ∉ s'.live := by
  intro k' hd hk'
  cases hstep with
  | enter k evicted hfresh hevicted hlive hheld hused hduties =>
    rw [hlive] at hk'
    rcases hduties.back hd with hd | hd | hd
    · rcases hk' with rfl | hk'
      · exact hfresh (h.duty_used _ _ hd)
      · exact h.release k' hd hk'.1
    · cases (Prod.mk.inj hd).1
    · have hev := (mem_releases.mp hd).2
      rcases hk' with rfl | hk'
      · exact hfresh (h.live_used _ (hevicted hev))
      · exact hk'.2 hev
  | acquire k hduty hlive hheld hused honly hduties =>
    exact h.release k' ((hduties.back hd).resolve_right (by simp)) (hlive ▸ hk')
  | giveUp k hduty hlive hheld hused hduties =>
    rw [hlive] at hk'
    exact h.release k' ((hduties.back hd).resolve_right id) hk'.1
  | confirm k hk hlive hheld hused hduties =>
    exact h.release k' ((hduties.back hd).resolve_right id) (hlive ▸ hk')
  | revoke k hduty hk hlive hheld hused hduties =>
    rcases hduties.back hd with hd | hd
    · exact h.release k' hd (hlive ▸ hk')
    · exact hk ((Prod.mk.inj hd).2 ▸ hlive ▸ hk')
  | release k hduty hlive hheld hused hduties =>
    exact h.release k' ((hduties.back hd).resolve_right id) (hlive ▸ hk')
  | leave ks hks hlive hheld hused hduties =>
    rw [hlive] at hk'
    rcases hduties.back hd with hd | hd
    · exact h.release k' hd hk'.1
    · exact hk'.2 (mem_releases.mp hd).2

/-- No held resource is about to be acquired. -/
theorem acquire_notMem (h : Consistent s) (hstep : Step s s') :
    ∀ k, (.acquire, k) ∈ s'.duties → k ∉ s'.held := by
  intro k' hd hk'
  cases hstep with
  | enter k evicted hfresh hevicted hlive hheld hused hduties =>
    rw [hheld] at hk'
    rcases hduties.back hd with hd | hd | hd
    · exact h.acquire k' hd hk'
    · exact hfresh ((Prod.mk.inj hd).2 ▸ h.held_used hk')
    · cases (mem_releases.mp hd).1
  | acquire k hduty hlive hheld hused honly hduties =>
    rw [hheld] at hk'
    rcases hk' with rfl | hk'
    · exact honly hd
    · exact h.acquire k' ((hduties.back hd).resolve_right (by simp)) hk'
  | giveUp k hduty hlive hheld hused hduties =>
    exact h.acquire k' ((hduties.back hd).resolve_right id) (hheld ▸ hk')
  | confirm k hk hlive hheld hused hduties =>
    exact h.acquire k' ((hduties.back hd).resolve_right id) (hheld ▸ hk')
  | revoke k hduty hk hlive hheld hused hduties =>
    exact h.acquire k' ((hduties.back hd).resolve_right (by simp)) (hheld ▸ hk')
  | release k hduty hlive hheld hused hduties =>
    rw [hheld] at hk'
    exact h.acquire k' ((hduties.back hd).resolve_right id) hk'.1
  | leave ks hks hlive hheld hused hduties =>
    rcases hduties.back hd with hd | hd
    · exact h.acquire k' hd (hheld ▸ hk')
    · cases (mem_releases.mp hd).1

end Step

/-- Every step keeps the registry consistent. -/
theorem Consistent.step (h : Consistent s) (hstep : Step s s') : Consistent s' :=
  ⟨hstep.live_used h, hstep.duty_used h, hstep.live h, hstep.held h, hstep.release_notMem h,
    hstep.acquire_notMem h⟩

/-- When no task has a duty left, the held resources are those of the live keys. -/
theorem Consistent.held_eq_live (h : Consistent s) (hduties : ∀ x, x ∉ s.duties) :
    s.held = s.live := by
  ext k
  constructor
  · intro hk
    rcases h.held k hk with hk | hd | hd
    · exact hk
    · exact absurd hd (hduties _)
    · exact absurd hd (hduties _)
  · exact fun hk => (h.live k hk).resolve_right (hduties _)

end Leases
