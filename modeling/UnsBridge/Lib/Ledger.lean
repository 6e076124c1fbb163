import Mathlib.Data.List.Nodup

/-!
# Histories of a one-shot map

The history of a map is the list of its events: a key enters with a value, and a key leaves for a
reason.  The entries of the map are what a history leaves `live`: everything that entered and has
not left, in the order of entering.  In a `OneShot` history no key enters twice, and what leaves has
entered and leaves once; such a history is kept by appending the entry of a new key and by appending
the departure of distinct live keys, and `live` then grows at the end or is filtered.
-/

namespace Ledger

variable {K V R : Type*}

/-- An event in the life of a map with keys in `K` and values in `V`; a key leaves for a reason. -/
inductive Event (K V R : Type*) where
  | enter (key : K) (value : V)
  | leave (key : K) (reason : R)

/-- The entry that an event makes. -/
def Event.entry : Event K V R → Option (K × V)
  | .enter k v => some (k, v)
  | .leave _ _ => none

/-- The departure that an event is. -/
def Event.departure : Event K V R → Option (K × R)
  | .enter _ _ => none
  | .leave k r => some (k, r)

/-- Everything that has entered, in order. -/
def entered (h : List (Event K V R)) : List (K × V) := h.filterMap Event.entry

/-- Everything that has left, with the reasons, in order. -/
def departed (h : List (Event K V R)) : List (K × R) := h.filterMap Event.departure

/-- The keys that have left. -/
def left (h : List (Event K V R)) : List K := (departed h).map Prod.fst

/-- The departures of a list of keys, all for the same reason. -/
def leaves (ks : List K) (r : R) : List (Event K V R) := ks.map fun k => .leave k r

/-- The entries that a history leaves in the map: what has entered and not left. -/
def live [DecidableEq K] (h : List (Event K V R)) : List (K × V) :=
  (entered h).filter fun p => p.1 ∉ left h

section Append

variable (h h' : List (Event K V R)) (k : K) (v : V) (r : R) (ks : List K)

@[simp] theorem entered_nil : entered ([] : List (Event K V R)) = [] := rfl

@[simp] theorem left_nil : left ([] : List (Event K V R)) = [] := rfl

@[simp] theorem entered_append : entered (h ++ h') = entered h ++ entered h' :=
  List.filterMap_append

@[simp] theorem left_append : left (h ++ h') = left h ++ left h' := by
  simp [left, departed, List.filterMap_append]

@[simp] theorem entered_enter : entered [Event.enter (R := R) k v] = [(k, v)] := rfl

@[simp] theorem left_enter : left [Event.enter (R := R) k v] = [] := rfl

@[simp] theorem entered_leaves : entered (leaves (V := V) ks r) = [] := by
  simp [entered, leaves, List.filterMap_map, Function.comp_def, Event.entry]

@[simp] theorem left_leaves : left (leaves (V := V) ks r) = ks := by
  simp [left, departed, leaves, List.filterMap_map, Function.comp_def, Event.departure]

end Append

section Live

variable [DecidableEq K] {h : List (Event K V R)}

@[simp] theorem live_nil : live ([] : List (Event K V R)) = [] := rfl

/-- An entry is live when it has entered and its key has not left. -/
theorem mem_live {p : K × V} : p ∈ live h ↔ p ∈ entered h ∧ p.1 ∉ left h := by
  simp [live]

/-- A key is live when it has entered and not left. -/
theorem mem_live_keys {k : K} :
    k ∈ (live h).map Prod.fst ↔ k ∈ (entered h).map Prod.fst ∧ k ∉ left h := by
  simp only [List.mem_map, mem_live]
  constructor
  · rintro ⟨p, ⟨hp, hleft⟩, rfl⟩
    exact ⟨⟨p, hp, rfl⟩, hleft⟩
  · rintro ⟨⟨p, hp, rfl⟩, hleft⟩
    exact ⟨p, ⟨hp, hleft⟩, rfl⟩

/-- A key that has not left enters the map at its end. -/
theorem live_append_enter {k : K} (hk : k ∉ left h) (v : V) :
    live (h ++ [.enter k v]) = live h ++ [(k, v)] := by
  simp [live, hk]

/-- Departures remove their keys from the map. -/
theorem live_append_leaves (ks : List K) (r : R) :
    live (h ++ leaves ks r) = (live h).filter fun p => p.1 ∉ ks := by
  simp only [live, entered_append, entered_leaves, List.append_nil, left_append, left_leaves,
    List.mem_append, List.filter_filter]
  refine List.filter_congr fun p _ => ?_
  simp only [not_or, Bool.decide_and, Bool.and_comm]

end Live

/-- No key enters twice, and what leaves has entered and leaves once. -/
structure OneShot (h : List (Event K V R)) : Prop where
  nodup_entered : ((entered h).map Prod.fst).Nodup
  nodup_left : (left h).Nodup
  entered_of_left : ∀ k ∈ left h, k ∈ (entered h).map Prod.fst

namespace OneShot

variable {h : List (Event K V R)}

/-- Nothing has happened to a new map. -/
theorem nil : OneShot ([] : List (Event K V R)) :=
  ⟨List.nodup_nil, List.nodup_nil, fun _ hk => absurd hk List.not_mem_nil⟩

/-- A key that has not entered has not left. -/
theorem notMem_left (hs : OneShot h) {k : K} (hk : k ∉ (entered h).map Prod.fst) : k ∉ left h :=
  fun hleft => hk (hs.entered_of_left k hleft)

/-- The entry of a new key. -/
theorem append_enter (hs : OneShot h) {k : K} (hk : k ∉ (entered h).map Prod.fst) (v : V) :
    OneShot (h ++ [.enter k v]) := by
  refine ⟨?_, by simpa using hs.nodup_left, ?_⟩
  · simp only [entered_append, entered_enter, List.map_append, List.map_cons, List.map_nil]
    simpa using List.Nodup.concat hk hs.nodup_entered
  · intro k' hk'
    have hleft : k' ∈ left h := by simpa using hk'
    simpa using Or.inl (by simpa using hs.entered_of_left k' hleft)

variable [DecidableEq K]

/-- The departure of distinct live keys. -/
theorem append_leaves (hs : OneShot h) {ks : List K} (hnodup : ks.Nodup)
    (hlive : ∀ k ∈ ks, k ∈ (live h).map Prod.fst) (r : R) : OneShot (h ++ leaves ks r) := by
  refine ⟨by simpa using hs.nodup_entered, ?_, ?_⟩
  · rw [left_append, left_leaves, List.nodup_append]
    refine ⟨hs.nodup_left, hnodup, ?_⟩
    rintro k hk _ hk' rfl
    exact (mem_live_keys.mp (hlive k hk')).2 hk
  · intro k hk
    rw [left_append, left_leaves] at hk
    rw [entered_append, entered_leaves, List.append_nil]
    rcases List.mem_append.mp hk with hk | hk
    · exact hs.entered_of_left k hk
    · exact (mem_live_keys.mp (hlive k hk)).1

/-- The live keys are pairwise different. -/
theorem nodup_live (hs : OneShot h) : ((live h).map Prod.fst).Nodup :=
  hs.nodup_entered.sublist (List.filter_sublist.map Prod.fst)

end OneShot

end Ledger
