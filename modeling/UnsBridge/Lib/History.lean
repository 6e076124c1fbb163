import Mathlib.Data.List.Induction
import Mathlib.Tactic.Common

/-!
# Histories in which every event is justified

A history is a list of events that grows at its end.  It is `Justified` when every event of it
stands in a given relation to the events before it; such a history is kept by appending an event
that the whole history so far justifies.

Two relations between the events of a history are made for such justifications.  `Since P h rest`
says that `rest` is what has happened in `h` since a moment at which `P` held, and `Answered P e h`
that the event `e` has happened since every such moment.  `LastMark` splits a history at the last
event of some kind.
-/

namespace History

variable {E : Type*} {J : List E → E → Prop} {h : List E}

/-- Every event of the history is justified by the events before it. -/
def Justified (J : List E → E → Prop) (h : List E) : Prop :=
  ∀ past e future, h = past ++ e :: future → J past e

/-- In the empty history nothing needs a justification. -/
theorem Justified.nil : Justified J ([] : List E) := by
  intro past e future h
  simp at h

/-- A history goes on with an event that it justifies. -/
theorem Justified.snoc (hJ : Justified J h) {e : E} (he : J h e) : Justified J (h ++ [e]) := by
  intro past e' future heq
  rcases List.eq_nil_or_concat future with rfl | ⟨future, last, rfl⟩
  · obtain ⟨rfl, hlast⟩ := List.append_inj' heq rfl
    cases hlast
    exact he
  · have heq' : h ++ [e] = (past ++ e' :: future) ++ [last] := by simpa using heq
    exact hJ past e' future (List.append_inj' heq' rfl).1

/-! ### Since a moment -/

section Since

variable {P : List E → Prop} {e x : E} {rest : List E}

/-- The events `rest` are what has happened since a moment at which the history satisfied `P`. -/
def Since (P : List E → Prop) (h rest : List E) : Prop := ∃ past, h = past ++ rest ∧ P past

/-- The event `e` has happened since every moment at which the history satisfied `P`. -/
def Answered (P : List E → Prop) (e : E) (h : List E) : Prop := ∀ rest, Since P h rest → e ∈ rest

/-- A moment of a history with one more event is its end, or a moment of the history before. -/
theorem Since.of_snoc (hs : Since P (h ++ [x]) rest) :
    (rest = [] ∧ P (h ++ [x])) ∨ ∃ rest', rest = rest' ++ [x] ∧ Since P h rest' := by
  obtain ⟨past, heq, hP⟩ := hs
  rcases List.eq_nil_or_concat rest with rfl | ⟨rest', last, rfl⟩
  · rw [List.append_nil] at heq
    exact Or.inl ⟨rfl, heq ▸ hP⟩
  · rw [List.concat_eq_append, ← List.append_assoc] at heq
    obtain ⟨hpast, hlast⟩ := List.append_inj' heq rfl
    obtain rfl := List.singleton_inj.mp hlast
    exact Or.inr ⟨rest', List.concat_eq_append, past, hpast, hP⟩

/-- What is answered stays so while no new moment comes up. -/
theorem Answered.snoc (ha : Answered P e h) (hP : ¬ P (h ++ [x])) : Answered P e (h ++ [x]) := by
  intro rest hs
  rcases hs.of_snoc with ⟨-, hnew⟩ | ⟨rest', rfl, hbefore⟩
  · exact absurd hnew hP
  · exact List.mem_append_left _ (ha rest' hbefore)

/-- The event itself answers every moment before it. -/
theorem Answered.self (hP : ¬ P (h ++ [e])) : Answered P e (h ++ [e]) := by
  intro rest hs
  rcases hs.of_snoc with ⟨-, hnew⟩ | ⟨rest', rfl, -⟩
  · exact absurd hnew hP
  · exact List.mem_append_right _ (List.mem_singleton_self e)

end Since

/-! ### The last mark -/

section LastMark

variable {mark : E → Prop} {m x : E} {before since : List E}

/-- The history splits at its last mark. -/
structure LastMark (mark : E → Prop) (h before : List E) (m : E) (since : List E) : Prop where
  split : h = before ++ m :: since
  isMark : mark m
  last : ∀ e ∈ since, ¬ mark e

/-- A new mark is the last one. -/
theorem LastMark.of_snoc_mark (hx : mark x) (hl : LastMark mark (h ++ [x]) before m since) :
    before = h ∧ m = x ∧ since = [] := by
  obtain ⟨heq, -, hlast⟩ := hl
  rcases List.eq_nil_or_concat since with rfl | ⟨since', last, rfl⟩
  · obtain ⟨hh, hm⟩ := List.append_inj' heq rfl
    exact ⟨hh.symm, (List.singleton_inj.mp hm).symm, rfl⟩
  · have heq' : h ++ [x] = (before ++ m :: since') ++ [last] := by simpa using heq
    obtain ⟨-, hend⟩ := List.append_inj' heq' rfl
    obtain rfl := List.singleton_inj.mp hend
    exact absurd hx (hlast x (by simp))

/-- Any other event leaves the last mark where it is. -/
theorem LastMark.of_snoc (hx : ¬ mark x) (hl : LastMark mark (h ++ [x]) before m since) :
    ∃ since', since = since' ++ [x] ∧ LastMark mark h before m since' := by
  obtain ⟨heq, hm, hlast⟩ := hl
  rcases List.eq_nil_or_concat since with rfl | ⟨since', last, rfl⟩
  · obtain ⟨-, hend⟩ := List.append_inj' heq rfl
    exact absurd (List.singleton_inj.mp hend ▸ hm) hx
  · have heq' : h ++ [x] = (before ++ m :: since') ++ [last] := by simpa using heq
    obtain ⟨hh, hend⟩ := List.append_inj' heq' rfl
    obtain rfl := List.singleton_inj.mp hend
    exact ⟨since', List.concat_eq_append, hh, hm, fun e he => hlast e (by simp [he])⟩

end LastMark

end History
