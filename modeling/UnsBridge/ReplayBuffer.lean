import UnsBridge.Lib.Ledger
import UnsBridge.Lib.Transition
import UnsBridge.Policy

/-!
# The replay buffer holds the newest events

Events that arrive while the site link is down wait in the replay buffer of the policy.  Pushes go
to its back and evict its front when it is full; the watcher pops from the front, and puts an event
that it could not publish back there, unless the buffer has filled up in the meantime.

An item is known by its position in the sequence of all pushes.  `ReplayWatch` records what has
become of the items, `Sound` says that the buffer is the end of that sequence, and
`replay_buffer_newest` that this survives every call of a watcher that only returns what it holds.
The point is the gap between a pop and the requeue: once an event has been evicted in the gap the
buffer is full, and stays full until the requeue is refused.
-/

namespace UnsBridge

open Ledger Transition

/-- How an item leaves the replay buffer for good. -/
inductive ReplayExit where
  | popped | evicted | refused
  deriving DecidableEq, Repr

/-- A policy, the items pushed so far, what the watcher has popped and not returned, the place of an
item that it has returned and not popped since, all pops, and the history of the stored items. -/
structure ReplayWatch (ι : Type) where
  policy : UplinkPolicy ι
  pushed : List ι
  held : Option (ℕ × ι)
  returned : Option ℕ
  pops : List (ℕ × ι)
  history : List (Event ℕ ι ReplayExit)

namespace ReplayWatch

variable {ι : Type}

/-- The place of the front of the buffer in the sequence of all pushes. -/
def first (w : ReplayWatch ι) : ℕ := w.pushed.length - w.policy.evtBuffer.length

/-- The state after a call.  A pop is final as soon as the next one is made. -/
def step (w : ReplayWatch ι) : PolicyAction ι → ReplayWatch ι
  | .admitVerdict cls connected now =>
    { w with policy := (w.policy.admitVerdict cls connected now).2 }
  | .pushEvt item =>
    let (answer, policy) := w.policy.pushEvt item
    let evicted := if answer = .stored true then leaves [w.first] .evicted else []
    let stored := if answer = .rejected then [] else [.enter w.pushed.length item]
    { w with policy, pushed := w.pushed ++ [item], history := w.history ++ evicted ++ stored }
  | .popEvt =>
    let (answer, policy) := w.policy.popEvt
    let out := answer.map (w.first, ·)
    { w with
      policy, held := out, returned := none, pops := w.pops ++ out.toList
      history := w.history ++ leaves (w.held.toList.map Prod.fst) .popped }
  | .requeueEvtFront item =>
    let (kept, policy) := w.policy.requeueEvtFront item
    let place := w.held.map Prod.fst
    { w with
      policy, held := none, returned := if kept then place else w.returned
      history := w.history ++ if kept then [] else leaves place.toList .refused }

/-- Nothing has happened yet. -/
def fresh (policy : UplinkPolicy ι) : ReplayWatch ι where
  policy
  pushed := []
  held := none
  returned := none
  pops := []
  history := []

/-- A policy with an empty buffer of a given bound, under any calls. -/
def system (ι : Type) (bound : ℕ) : System (ReplayWatch ι) (PolicyAction ι) where
  init w := ∃ policy, w = fresh policy ∧ policy.evtBuffer = [] ∧ policy.evtBufferMax = bound
  step w a := some (w.step a)

/-- The watcher only returns the item that it holds: the one that the last pop gave it, once. -/
def Disciplined (w : ReplayWatch ι) (a : PolicyAction ι) : Prop :=
  ∀ item, a = .requeueEvtFront item → ∃ n, w.held = some (n, item)

/-- The buffer holds the newest items, in order. -/
structure Sound (w : ReplayWatch ι) : Prop where
  /-- The buffer is the end of the sequence of all pushes. -/
  suffix : w.policy.evtBuffer = w.pushed.drop w.first
  /-- The bound is kept. -/
  bounded : w.policy.evtBuffer.length ≤ w.policy.evtBufferMax
  /-- A pop gives the item at its place. -/
  pop_mem : ∀ p ∈ w.pops, w.pushed[p.1]? = some p.2
  /-- The pops are in push order. -/
  pops_ordered : w.pops.Pairwise fun p q => p.1 ≤ q.1
  /-- An item is popped again only when the watcher has returned it and not popped since. -/
  pops_before : ∀ p ∈ w.pops, p.1 < w.first ∨ p.1 = w.first ∧ w.returned = some p.1
  /-- A returned item is the next to be popped, unless a push has evicted it since. -/
  returned_next : ∀ n, w.returned = some n →
    n = w.first ∧ n < w.pushed.length ∨ (n, .evicted) ∈ departed w.history
  /-- The watcher holds an item only until it returns it. -/
  held_returned : w.held ≠ none → w.returned = none
  /-- What has left is older than everything in the buffer. -/
  left_before : ∀ n ∈ left w.history, n < w.first
  /-- No item leaves twice. -/
  oneShot : OneShot w.history
  /-- Every item is stored, unless buffering is off. -/
  stored : ∀ p, p ∈ entered w.history ↔ 0 < w.policy.evtBufferMax ∧ w.pushed[p.1]? = some p.2
  /-- A stored item that has not left is held or in the buffer. -/
  live : ∀ p, p ∈ live w.history ↔
    w.held = some p ∨ w.first ≤ p.1 ∧ w.pushed[p.1]? = some p.2
  /-- What is held is older than the buffer; it is the item before the front, or the buffer is
  full. -/
  held_before : ∀ p, w.held = some p → p.1 < w.first ∧
    (p.1 + 1 = w.first ∨ w.policy.evtBufferMax ≤ w.policy.evtBuffer.length)

variable {w : ReplayWatch ι}

/-- The buffer is a part of what has been pushed. -/
theorem Sound.length_pushed (h : w.Sound) :
    w.pushed.length = w.first + w.policy.evtBuffer.length := by
  have hlen := congrArg List.length h.suffix
  rw [List.length_drop] at hlen
  unfold first at hlen ⊢
  omega

/-- The front is where the buffer fits. -/
theorem first_eq {n : ℕ} (h : w.pushed.length = n + w.policy.evtBuffer.length) : w.first = n := by
  unfold first
  omega

/-- A place with an item is one of the sequence. -/
theorem lt_of_getElem? {n : ℕ} {item : ι} (hn : w.pushed[n]? = some item) :
    n < w.pushed.length := (List.getElem?_eq_some_iff.mp hn).1

/-- An item in the sequence of pushes after one more. -/
theorem getElem?_concat_eq_some_iff {xs : List ι} {item x : ι} {n : ℕ} :
    (xs ++ [item])[n]? = some x ↔ xs[n]? = some x ∨ n = xs.length ∧ item = x := by
  rw [List.getElem?_append]
  split_ifs with hn
  · simp [Nat.ne_of_lt hn]
  · have hout : xs[n]? = none := List.getElem?_eq_none (Nat.not_lt.mp hn)
    rw [hout, List.getElem?_singleton]
    split_ifs with hzero
    · simp [show n = xs.length by omega]
    · simp [show n ≠ xs.length by omega]

/-- Only the buffer and the bound of the policy matter. -/
theorem Sound.congr (h : w.Sound) {p : UplinkPolicy ι}
    (hbuffer : p.evtBuffer = w.policy.evtBuffer) (hmax : p.evtBufferMax = w.policy.evtBufferMax) :
    Sound { w with policy := p } := by
  obtain ⟨classes, buffer, bound⟩ := p
  subst hbuffer hmax
  exact ⟨h.suffix, h.bounded, h.pop_mem, h.pops_ordered, h.pops_before, h.returned_next,
    h.held_returned, h.left_before, h.oneShot, h.stored, h.live, h.held_before⟩

/-- A push that is rejected, because buffering is off. -/
theorem Sound.push_off (h : w.Sound) (hoff : w.policy.evtBufferMax = 0) (item : ι) :
    (w.step (.pushEvt item)).Sound := by
  have hlen := h.length_pushed
  have hbounded := h.bounded
  have hbuffer : w.policy.evtBuffer = [] := List.eq_nil_of_length_eq_zero (by omega)
  have hfirst : w.first = w.pushed.length := by simpa [hbuffer] using hlen.symm
  have hstep : w.step (.pushEvt item) = { w with pushed := w.pushed ++ [item] } := by
    simp [step, UplinkPolicy.pushEvt, hoff]
  have hfirst' : (w.step (.pushEvt item)).first = w.first + 1 :=
    first_eq (by simp [hstep, hbuffer, hfirst])
  have hstay : ∀ {n : ℕ} {x : ι}, w.pushed[n]? = some x → (w.pushed ++ [item])[n]? = some x :=
    fun hn => getElem?_concat_eq_some_iff.mpr (Or.inl hn)
  rw [hstep] at hfirst' ⊢
  refine ⟨?_, h.bounded, fun p hp => hstay (h.pop_mem p hp), h.pops_ordered, fun p hp => ?_,
    fun n hn => ?_, h.held_returned, fun n hn => ?_, h.oneShot, fun p => ?_, fun p => ?_,
    fun p hp => ?_⟩
  · rw [hfirst', hfirst, hbuffer, List.drop_of_length_le (by simp)]
  · have hbefore := h.pops_before p hp
    omega
  · rcases h.returned_next n hn with ⟨heq, hlt⟩ | hevicted
    · omega
    · exact Or.inr hevicted
  · have hbefore := h.left_before n hn
    omega
  · rw [h.stored p]
    simp [hoff]
  · rw [h.live p, hfirst']
    refine or_congr Iff.rfl ?_
    constructor
    · rintro ⟨hle, hp⟩
      have hlt := lt_of_getElem? hp
      omega
    · rintro ⟨hle, hp⟩
      have hlt := (List.getElem?_eq_some_iff.mp hp).1
      rw [List.length_append, List.length_singleton] at hlt
      omega
  · obtain ⟨hlt, -⟩ := h.held_before p hp
    exact ⟨by omega, Or.inr (by simp [hoff])⟩

/-- The eviction of a push that is stored: the items at the places `ks` at the front go, and `kept`,
which has room for one more, remains. -/
structure Eviction (w : ReplayWatch ι) (kept : List ι) (ks : List ℕ) : Prop where
  length_pushed : w.pushed.length = w.first + ks.length + kept.length
  suffix : kept = w.pushed.drop (w.first + ks.length)
  room : kept.length < w.policy.evtBufferMax
  full : ks ≠ [] → w.policy.evtBufferMax ≤ kept.length + 1
  places : ∀ k, k ∈ ks ↔ w.first ≤ k ∧ k < w.first + ks.length
  nodup : ks.Nodup

/-- Where there is room, nothing is evicted. -/
theorem Sound.eviction_of_room (h : w.Sound)
    (hroom : w.policy.evtBuffer.length < w.policy.evtBufferMax) :
    w.Eviction w.policy.evtBuffer [] where
  length_pushed := h.length_pushed
  suffix := h.suffix
  room := hroom
  full hne := absurd rfl hne
  places k := by simp
  nodup := List.nodup_nil

/-- A full buffer loses its front. -/
theorem Sound.eviction_of_full (h : w.Sound) (hpos : 0 < w.policy.evtBufferMax)
    (hfull : w.policy.evtBufferMax ≤ w.policy.evtBuffer.length) :
    w.Eviction w.policy.evtBuffer.tail [w.first] := by
  have hlen := h.length_pushed
  have hbounded := h.bounded
  have htail : w.policy.evtBuffer.tail.length = w.policy.evtBuffer.length - 1 := List.length_tail
  refine ⟨?_, ?_, by omega, fun _ => by omega, fun k => ?_, List.nodup_singleton _⟩
  · rw [List.length_singleton]
    omega
  · rw [List.length_singleton, ← List.tail_drop, ← h.suffix]
  · rw [List.mem_singleton, List.length_singleton]
    omega

/-- The evicted items are in the buffer. -/
theorem Sound.live_of_evicted (h : w.Sound) {kept : List ι} {ks : List ℕ}
    (hevict : w.Eviction kept ks) {k : ℕ} (hk : k ∈ ks) :
    k ∈ (Ledger.live w.history).map Prod.fst := by
  obtain ⟨hle, hlt⟩ := (hevict.places k).mp hk
  have hlength := hevict.length_pushed
  have hpushed : k < w.pushed.length := by omega
  exact List.mem_map.mpr ⟨(k, w.pushed[k]),
    (h.live _).mpr (Or.inr ⟨hle, List.getElem?_eq_getElem hpushed⟩), rfl⟩

/-- A push that is stored, after its eviction. -/
theorem Sound.push_stored (h : w.Sound) {kept : List ι} {ks : List ℕ}
    (hevict : w.Eviction kept ks) (item : ι) :
    Sound { w with
      policy := { w.policy with evtBuffer := kept ++ [item] }
      pushed := w.pushed ++ [item]
      history := w.history ++ leaves ks .evicted ++ [.enter w.pushed.length item] } := by
  have hlength := hevict.length_pushed
  have hroom := hevict.room
  have hnew : w.pushed.length ∉ left (w.history ++ leaves ks ReplayExit.evicted) := by
    simp only [left_append, left_leaves, List.mem_append, hevict.places]
    rintro (hleft | hplace)
    · have hbefore := h.left_before _ hleft
      omega
    · omega
  have hentered : entered (w.history ++ leaves ks ReplayExit.evicted) = entered w.history := by
    simp
  -- the eviction moves the front on by one place for each evicted item
  have hfirst : first { w with
      policy := { w.policy with evtBuffer := kept ++ [item] }
      pushed := w.pushed ++ [item]
      history := w.history ++ leaves ks .evicted ++ [.enter w.pushed.length item] } =
      w.first + ks.length :=
    first_eq (by simp only [List.length_append, List.length_singleton]; omega)
  have hstay : ∀ {n : ℕ} {x : ι}, w.pushed[n]? = some x → (w.pushed ++ [item])[n]? = some x :=
    fun hn => getElem?_concat_eq_some_iff.mpr (Or.inl hn)
  refine ⟨?_, ?_, fun p hp => hstay (h.pop_mem p hp), h.pops_ordered, fun p hp => ?_,
    fun n hn => ?_, h.held_returned, fun n hn => ?_, ?_, fun p => ?_, fun p => ?_, fun p hp => ?_⟩
  · rw [hfirst, List.drop_append_of_le_length (by omega), ← hevict.suffix]
  · simp only [List.length_append, List.length_singleton]
    exact hroom
  · rw [hfirst]
    rcases h.pops_before p hp with hlt | ⟨heq, hreturned⟩
    · exact Or.inl (by omega)
    · rcases Nat.eq_zero_or_pos ks.length with hzero | hpos
      · exact Or.inr ⟨by omega, hreturned⟩
      · exact Or.inl (by omega)
  · rw [hfirst]
    rcases h.returned_next n hn with ⟨heq, hlt⟩ | hevicted
    · rcases Nat.eq_zero_or_pos ks.length with hzero | hpos
      · exact Or.inl ⟨by omega, by simp only [List.length_append]; omega⟩
      · have hmem : n ∈ ks := (hevict.places n).mpr ⟨by omega, by omega⟩
        exact Or.inr (by simp [departed, leaves, Event.departure, hmem])
    · exact Or.inr (by simpa [departed] using Or.inl hevicted)
  · rw [hfirst]
    simp only [left_append, left_enter, left_leaves, List.append_nil, List.mem_append,
      hevict.places] at hn
    rcases hn with hn | hn
    · have hbefore := h.left_before n hn
      omega
    · exact hn.2
  · refine (h.oneShot.append_leaves hevict.nodup (fun k => h.live_of_evicted hevict)
      .evicted).append_enter ?_ item
    rw [hentered]
    rintro hmem
    obtain ⟨p, hp, heq⟩ := List.mem_map.mp hmem
    have hlt := lt_of_getElem? ((h.stored p).mp hp).2
    omega
  · rw [entered_append, hentered, List.mem_append, h.stored p, entered_enter,
      List.mem_singleton, getElem?_concat_eq_some_iff]
    have hpos : 0 < w.policy.evtBufferMax := by omega
    simp [hpos, Prod.ext_iff, eq_comm]
  · rw [live_append_enter hnew, live_append_leaves, List.mem_append, List.mem_filter, h.live p,
      List.mem_singleton, hfirst, getElem?_concat_eq_some_iff, decide_eq_true_eq, hevict.places]
    constructor
    · rintro (⟨hheld | ⟨hle, hp⟩, hout⟩ | rfl)
      · exact Or.inl hheld
      · exact Or.inr ⟨by omega, Or.inl hp⟩
      · exact Or.inr ⟨by simp only; omega, Or.inr ⟨rfl, rfl⟩⟩
    · rintro (hheld | ⟨hle, hp | ⟨hn, rfl⟩⟩)
      · have hbefore := (h.held_before p hheld).1
        exact Or.inl ⟨Or.inl hheld, by omega⟩
      · exact Or.inl ⟨Or.inr ⟨by omega, hp⟩, by omega⟩
      · exact Or.inr (Prod.ext hn rfl)
  · rw [hfirst]
    obtain ⟨hlt, hgap⟩ := h.held_before p hp
    refine ⟨by omega, ?_⟩
    simp only [List.length_append, List.length_singleton]
    -- an eviction in the gap leaves the buffer full; without one, its front has not moved
    by_cases hnone : ks = []
    · have hold := h.length_pushed
      simp only [hnone, List.length_nil] at hlength ⊢
      omega
    · exact Or.inr (hevict.full hnone)

/-- A held item is one of those pushed, and has not left. -/
theorem Sound.of_held (h : w.Sound) {p : ℕ × ι} (hp : w.held = some p) :
    w.pushed[p.1]? = some p.2 ∧ p.1 ∉ left w.history := by
  obtain ⟨hentered, hleft⟩ := mem_live.mp ((h.live p).mpr (Or.inl hp))
  exact ⟨((h.stored p).mp hentered).2, hleft⟩

/-- The watcher gives up what it holds. -/
theorem Sound.settle (h : w.Sound) (e : ReplayExit) :
    Sound { w with
      held := none
      history := w.history ++ leaves (w.held.toList.map Prod.fst) e } := by
  have hkeys : ∀ k, k ∈ w.held.toList.map Prod.fst ↔ ∃ p, w.held = some p ∧ p.1 = k := by
    simp
  have hnodup : (w.held.toList.map Prod.fst).Nodup := by
    cases w.held with
    | none => exact List.nodup_nil
    | some p => exact List.nodup_singleton _
  refine ⟨h.suffix, h.bounded, h.pop_mem, h.pops_ordered, h.pops_before, fun n hn => ?_,
    fun hne => absurd rfl hne, fun n hn => ?_, ?_, fun p => ?_, fun p => ?_,
    fun p hp => absurd hp (by simp)⟩
  · exact (h.returned_next n hn).imp id fun hevicted => by simpa [departed] using Or.inl hevicted
  · rw [left_append, left_leaves, List.mem_append, hkeys] at hn
    rcases hn with hn | ⟨p, hp, rfl⟩
    · exact h.left_before n hn
    · exact (h.held_before p hp).1
  · refine h.oneShot.append_leaves hnodup (fun k hk => ?_) e
    obtain ⟨p, hp, rfl⟩ := (hkeys k).mp hk
    exact List.mem_map_of_mem ((h.live p).mpr (Or.inl hp))
  · rw [entered_append, entered_leaves, List.append_nil]
    exact h.stored p
  · rw [live_append_leaves, List.mem_filter, h.live p, decide_eq_true_eq, hkeys]
    constructor
    · rintro ⟨hheld | hin, hout⟩
      · exact absurd ⟨p, hheld, rfl⟩ hout
      · exact Or.inr hin
    · rintro (hnone | hin)
      · cases hnone
      · refine ⟨Or.inr hin, ?_⟩
        rintro ⟨q, hq, heq⟩
        have hbefore : q.1 < w.first := (h.held_before q hq).1
        have hafter : w.first ≤ p.1 := hin.1
        omega

/-- A pop that finds the buffer empty. -/
theorem Sound.pop_empty (h : w.Sound) (hheld : w.held = none) (hempty : w.policy.evtBuffer = []) :
    Sound { w with returned := none } := by
  have hlen : w.pushed.length = w.first := by simpa [hempty] using h.length_pushed
  refine ⟨h.suffix, h.bounded, h.pop_mem, h.pops_ordered, fun p hp => Or.inl ?_,
    fun n hn => absurd hn (by simp), fun hne => absurd hheld hne, h.left_before, h.oneShot,
    h.stored, h.live, h.held_before⟩
  exact hlen ▸ lt_of_getElem? (h.pop_mem p hp)

/-- A pop that finds an item, by a watcher that holds nothing. -/
theorem Sound.pop_item (h : w.Sound) (hheld : w.held = none) {item : ι} {rest : List ι}
    (hbuffer : w.policy.evtBuffer = item :: rest) :
    Sound { w with
      policy := { w.policy with evtBuffer := rest }
      held := some (w.first, item), returned := none
      pops := w.pops ++ [(w.first, item)] } := by
  have hbounded := h.bounded
  have hlen := h.length_pushed
  rw [hbuffer, List.length_cons] at hlen hbounded
  have hsuffix : item :: rest = w.pushed.drop w.first := hbuffer ▸ h.suffix
  have hfront : w.pushed[w.first]? = some item := by
    rw [← List.head?_drop, ← hsuffix, List.head?_cons]
  have hrest : rest = w.pushed.drop (w.first + 1) := by
    rw [← List.tail_drop, ← hsuffix, List.tail_cons]
  have hfirst : first { w with
      policy := { w.policy with evtBuffer := rest }
      held := some (w.first, item), returned := none
      pops := w.pops ++ [(w.first, item)] } = w.first + 1 :=
    first_eq (by simp only; omega)
  have hbefore : ∀ p ∈ w.pops, p.1 ≤ w.first := by
    intro p hp
    rcases h.pops_before p hp with hlt | ⟨heq, -⟩ <;> omega
  refine ⟨?_, ?_, fun p hp => ?_, ?_, fun p hp => ?_, fun n hn => absurd hn (by simp),
    fun _ => rfl, fun n hn => ?_, h.oneShot, h.stored, fun p => ?_, fun p hp => ?_⟩
  · rw [hfirst]
    exact hrest
  · exact Nat.le_of_succ_le hbounded
  · rcases List.mem_append.mp hp with hp | hp
    · exact h.pop_mem p hp
    · obtain rfl := List.mem_singleton.mp hp
      exact hfront
  · refine List.pairwise_append.mpr ⟨h.pops_ordered, List.pairwise_singleton _ _, ?_⟩
    intro p hp q hq
    obtain rfl := List.mem_singleton.mp hq
    exact hbefore p hp
  · rw [hfirst]
    apply Or.inl
    rcases List.mem_append.mp hp with hp | hp
    · exact Nat.lt_succ_of_le (hbefore p hp)
    · obtain rfl := List.mem_singleton.mp hp
      exact Nat.lt_succ_self _
  · rw [hfirst]
    exact Nat.lt_succ_of_lt (h.left_before n hn)
  · rw [h.live p, hfirst, hheld, Option.some_inj]
    constructor
    · rintro (hnone | ⟨hle, hp⟩)
      · cases hnone
      · rcases Nat.eq_or_lt_of_le hle with heq | hlt
        · exact Or.inl (Prod.ext heq (Option.some.inj (hfront.symm.trans (heq ▸ hp))))
        · exact Or.inr ⟨hlt, hp⟩
    · rintro (rfl | ⟨hle, hp⟩)
      · exact Or.inr ⟨Nat.le_refl _, hfront⟩
      · exact Or.inr ⟨by omega, hp⟩
  · obtain rfl := Option.some.inj hp
    rw [hfirst]
    exact ⟨Nat.lt_succ_self _, Or.inl rfl⟩

/-- A requeue that finds room: nothing has been evicted since the pop. -/
theorem Sound.requeue_kept (h : w.Sound) {n : ℕ} {item : ι} (hheld : w.held = some (n, item))
    (hroom : w.policy.evtBuffer.length < w.policy.evtBufferMax) :
    Sound { w with
      policy := { w.policy with evtBuffer := item :: w.policy.evtBuffer }
      held := none, returned := some n } := by
  have hlen := h.length_pushed
  obtain ⟨hpushed, hleft⟩ := h.of_held hheld
  have hlt := lt_of_getElem? hpushed
  have hnext : n + 1 = w.first := by
    rcases (h.held_before _ hheld).2 with hnext | hfull
    · exact hnext
    · omega
  have hreturned : w.returned = none := h.held_returned (by simp [hheld])
  have hfirst : first { w with
      policy := { w.policy with evtBuffer := item :: w.policy.evtBuffer }
      held := none, returned := some n } = n :=
    first_eq (by simp only [List.length_cons]; omega)
  refine ⟨?_, hroom, h.pop_mem, h.pops_ordered, fun p hp => ?_, fun k hk => ?_,
    fun hne => absurd rfl hne, fun k hk => ?_, h.oneShot, h.stored, fun p => ?_,
    fun p hp => absurd hp (by simp)⟩
  · rw [hfirst, List.drop_eq_getElem_cons hlt, hnext, ← h.suffix,
      (List.getElem?_eq_some_iff.mp hpushed).2]
  · rw [hfirst]
    rcases h.pops_before p hp with hbefore | ⟨-, hsome⟩
    · rcases Nat.eq_or_lt_of_le (Nat.le_of_lt_succ (hnext ▸ hbefore)) with heq | hbefore
      · exact Or.inr ⟨heq, congrArg some heq.symm⟩
      · exact Or.inl hbefore
    · rw [hreturned] at hsome
      cases hsome
  · obtain rfl := Option.some.inj hk
    exact Or.inl ⟨hfirst.symm, hlt⟩
  · rw [hfirst]
    have hbefore := h.left_before k hk
    have hne : k ≠ n := fun heq => hleft (heq ▸ hk)
    omega
  · rw [h.live p, hfirst, hheld, Option.some_inj]
    constructor
    · rintro (rfl | ⟨hle, hp⟩)
      · exact Or.inr ⟨Nat.le_refl _, hpushed⟩
      · exact Or.inr ⟨by omega, hp⟩
    · rintro (hnone | ⟨hle, hp⟩)
      · cases hnone
      · rcases Nat.eq_or_lt_of_le hle with heq | hbefore
        · exact Or.inl (Prod.ext heq (Option.some.inj (hpushed.symm.trans (heq ▸ hp))))
        · exact Or.inr ⟨by omega, hp⟩

/-- Every call of a watcher that only returns what it holds keeps the buffer sound. -/
theorem Sound.step (h : w.Sound) {a : PolicyAction ι} (ha : w.Disciplined a) :
    (w.step a).Sound := by
  cases a with
  | admitVerdict cls connected now =>
    obtain ⟨hbuffer, hsetup⟩ := w.policy.admitVerdict_keeps cls connected now
    exact h.congr hbuffer hsetup.evtBufferMax
  | pushEvt item =>
    rcases Nat.eq_zero_or_pos w.policy.evtBufferMax with hoff | hpos
    · exact h.push_off hoff item
    · have hne := Nat.ne_of_gt hpos
      rcases Nat.lt_or_ge w.policy.evtBuffer.length w.policy.evtBufferMax with hroom | hfull
      · have hsound := h.push_stored (h.eviction_of_room hroom) item
        simpa [ReplayWatch.step, UplinkPolicy.pushEvt, hne, Nat.not_le.mpr hroom, leaves]
          using hsound
      · have hsound := h.push_stored (h.eviction_of_full hpos hfull) item
        simpa [ReplayWatch.step, UplinkPolicy.pushEvt, hne, hfull] using hsound
  | popEvt =>
    have hsettled := h.settle .popped
    cases hbuffer : w.policy.evtBuffer with
    | nil =>
      have hsound := (hsettled.pop_empty rfl hbuffer).congr (p := w.policy.popEvt.2)
        (by simp [UplinkPolicy.popEvt, hbuffer]) rfl
      simpa [ReplayWatch.step, UplinkPolicy.popEvt, hbuffer] using hsound
    | cons item rest =>
      have hstep : w.step .popEvt = { w with
          policy := { w.policy with evtBuffer := rest }
          held := some (w.first, item), returned := none
          pops := w.pops ++ [(w.first, item)]
          history := w.history ++ leaves (w.held.toList.map Prod.fst) .popped } := by
        simp [ReplayWatch.step, UplinkPolicy.popEvt, hbuffer]
      rw [hstep]
      exact hsettled.pop_item rfl hbuffer
  | requeueEvtFront item =>
    obtain ⟨n, hheld⟩ := ha item rfl
    rcases Nat.lt_or_ge w.policy.evtBuffer.length w.policy.evtBufferMax with hroom | hfull
    · have hsound := h.requeue_kept hheld hroom
      simpa [ReplayWatch.step, UplinkPolicy.requeueEvtFront, hheld, Nat.not_le.mpr hroom]
        using hsound
    · have hsound := h.settle .refused
      simpa [ReplayWatch.step, UplinkPolicy.requeueEvtFront, hheld, hfull] using hsound

/-- An empty buffer is sound. -/
theorem sound_fresh {policy : UplinkPolicy ι} (hempty : policy.evtBuffer = []) :
    (fresh policy).Sound where
  suffix := by simp [fresh, hempty]
  bounded := by simp [fresh, hempty]
  pop_mem _ hp := absurd hp List.not_mem_nil
  pops_ordered := List.Pairwise.nil
  pops_before _ hp := absurd hp List.not_mem_nil
  returned_next _ hn := absurd hn (by simp [fresh])
  held_returned _ := rfl
  left_before _ hn := absurd hn List.not_mem_nil
  oneShot := .nil
  stored p := by simp [fresh]
  live p := by simp [fresh]
  held_before _ hp := absurd hp (by simp [fresh])

/-- No call changes the bound. -/
theorem evtBufferMax_step (w : ReplayWatch ι) (a : PolicyAction ι) :
    (w.step a).policy.evtBufferMax = w.policy.evtBufferMax := by
  cases a with
  | admitVerdict cls connected now =>
    exact (w.policy.admitVerdict_keeps cls connected now).2.evtBufferMax
  | pushEvt item => exact (w.policy.pushEvt_cases item).1.evtBufferMax
  | popEvt => rfl
  | requeueEvtFront item => exact (w.policy.requeueEvtFront_cases item).1.evtBufferMax

/-- The buffer of a disciplined watcher is sound, and keeps its bound. -/
theorem sound {bound : ℕ} (h : (system ι bound).Reachable Disciplined w) :
    w.Sound ∧ w.policy.evtBufferMax = bound := by
  apply h.invariant (I := fun w => w.Sound ∧ w.policy.evtBufferMax = bound)
  · rintro w ⟨policy, rfl, hempty, hmax⟩
    exact ⟨sound_fresh hempty, hmax⟩
  · rintro w a w' - ⟨hsound, hmax⟩ hdisciplined hstep
    obtain rfl := Option.some.inj hstep
    exact ⟨hsound.step hdisciplined, (evtBufferMax_step w a).trans hmax⟩

/-- The discipline as a test. -/
def isDisciplined [DecidableEq ι] (w : ReplayWatch ι) : PolicyAction ι → Bool
  | .requeueEvtFront item => w.held.map Prod.snd = some item
  | _ => true

/-- The test implies the discipline. -/
theorem disciplined_of_isDisciplined [DecidableEq ι] (w : ReplayWatch ι) (a : PolicyAction ι)
    (h : w.isDisciplined a = true) : w.Disciplined a := by
  rintro item rfl
  obtain ⟨⟨n, x⟩, hheld, rfl⟩ := Option.map_eq_some_iff.mp (of_decide_eq_true h)
  exact ⟨n, hheld⟩

end ReplayWatch

/-- The replay buffer always holds the newest events that have not been replayed, in order.  Take
any bound, and any calls in which a requeue returns the item that the last pop gave, once; pushes
may fall between the two.

* The buffer is the end of the sequence of all pushes, and keeps the bound.
* The pops come out in push order.  What has been popped lies before the front of the buffer, but
  for an item that was requeued: it is the front again, unless a push has evicted it since.
* Everything that has left, be it popped for good, evicted or refused, was pushed before everything
  in the buffer.
* Every item is stored, unless the bound is zero.  No stored item leaves twice, and one that has not
  left is either held by the watcher or in the buffer.
-/
theorem replay_buffer_newest {ι : Type} {bound : ℕ} {w : ReplayWatch ι}
    (h : (ReplayWatch.system ι bound).Reachable ReplayWatch.Disciplined w) :
    (w.policy.evtBuffer = w.pushed.drop w.first ∧ w.policy.evtBuffer.length ≤ bound) ∧
    ((∀ p ∈ w.pops, w.pushed[p.1]? = some p.2) ∧ (w.pops.Pairwise fun p q => p.1 ≤ q.1) ∧
      (∀ p ∈ w.pops, p.1 < w.first ∨ p.1 = w.first ∧ w.returned = some p.1) ∧
      ∀ n, w.returned = some n →
        n = w.first ∧ n < w.pushed.length ∨ (n, .evicted) ∈ departed w.history) ∧
    (∀ n ∈ left w.history, n < w.first) ∧
    (∀ p, p ∈ entered w.history ↔ 0 < bound ∧ w.pushed[p.1]? = some p.2) ∧
    OneShot w.history ∧
    ∀ p, p ∈ live w.history ↔ (w.held = some p ∧ p.1 < w.first ∨
      w.first ≤ p.1 ∧ w.pushed[p.1]? = some p.2) := by
  obtain ⟨hsound, rfl⟩ := ReplayWatch.sound h
  refine ⟨⟨hsound.suffix, hsound.bounded⟩,
    ⟨hsound.pop_mem, hsound.pops_ordered, hsound.pops_before, hsound.returned_next⟩,
    hsound.left_before, hsound.stored, hsound.oneShot, fun p => ?_⟩
  rw [hsound.live p]
  exact or_congr ⟨fun hp => ⟨hp, (hsound.held_before p hp).1⟩, fun hp => hp.1⟩ Iff.rfl

/-- A buffer of two events that fills up while the watcher holds one: the event evicted in the gap
is newer than the one that the watcher cannot return. -/
def ReplayWatch.gapRun : List (PolicyAction String) :=
  [.pushEvt "a", .pushEvt "b", .popEvt, .pushEvt "c", .pushEvt "d", .requeueEvtFront "a"]

/-- The buffer holds the two newest events after that run. -/
theorem replay_buffer_newest_gap : ∃ w : ReplayWatch String,
    w.policy.evtBuffer = ["c", "d"] ∧ w.pushed = ["a", "b", "c", "d"] ∧
      w.policy.evtBuffer = w.pushed.drop w.first := by
  let policy : UplinkPolicy String :=
    { classes := fun _ => ⟨true, none⟩, evtBuffer := [], evtBufferMax := 2 }
  obtain ⟨w, hw, hobs⟩ := System.exists_reachable_of_exec (M := ReplayWatch.system String 2)
    (P := ReplayWatch.Disciplined) ReplayWatch.isDisciplined
    ReplayWatch.disciplined_of_isDisciplined (.init ⟨policy, rfl, rfl, rfl⟩) ReplayWatch.gapRun
    (fun w => (w.policy.evtBuffer, w.pushed)) (x := (["c", "d"], ["a", "b", "c", "d"]))
    (by decide +kernel)
  obtain ⟨hbuffer, hpushed⟩ := Prod.mk.inj hobs
  exact ⟨w, hbuffer, hpushed, (replay_buffer_newest hw).1.1⟩

end UnsBridge
