import Mathlib.Algebra.BigOperators.Group.Finset.Basic
import Mathlib.Algebra.Order.Group.Multiset
import Mathlib.Tactic.Abel
import UnsBridge.Io.UplinkFlow

/-!
# The books of the uplink

What the moves of the message flow keep.  `Flow.Placed` says which messages can be where, and where
they come from.  `Flow.places` collects every place a message can be in, and `places_of_move` says
that no message is lost or doubled: what was handed to `relay_up` is what is in these places.
`balance_of_move` and `evt_balance_of_move` relate a move to the counters it bumps.

The uplink tasks keep all of this in every run, `Uplink.books`.
-/

namespace UnsBridge

open Transition

variable {Bytes ρ : Type} [Inhabited ρ]

namespace Flow

variable {S : Setup Bytes ρ} {f f' : Flow Bytes} {a : UplinkAction Bytes} {bumps : List Bump}

/-- Which messages can be where: a pump holds messages of its own subscription and class, the buffer
and the watcher hold events, and what has been admitted is of an enabled class.  Every message
handed over stems from a received copy, in the order of these. -/
structure Placed (S : Setup Bytes ρ) (f : Flow Bytes) : Prop where
  pump : ∀ i, ∀ m ∈ (f.pumps i).load, m.subscription = i ∧ S.pumpClass i = some m.cls
  evt : ∀ m ∈ f.buffer ++ f.held.toList, m.cls = .evt
  publishing : ∀ i m, f.pumps i = .publishing m → S.policy.classEnabled m.cls = true
  admitted : ∀ m ∈ f.delivered ++ f.buffer ++ f.held.toList, S.policy.classEnabled m.cls = true
  origin : ∀ m ∈ f.handed, ∃ c ∈ f.received, m.From S c
  order : ∀ i, ((f.handed.filter fun m => m.subscription = i).map Forwarded.publish).Sublist
    ((f.received.filter fun c => c.subscription = i).map Copy.publish)

/-- What a pump holds after one of them has gone on. -/
theorem mem_load_update {pumps : ℕ → UplinkPhase Bytes} {i j : ℕ} {phase : UplinkPhase Bytes}
    {m : Forwarded Bytes} (h : m ∈ (Function.update pumps i phase j).load) :
    j = i ∧ m ∈ phase.load ∨ m ∈ (pumps j).load := by
  by_cases hji : j = i
  · subst hji
    exact Or.inl ⟨rfl, by simpa using h⟩
  · exact Or.inr (by simpa [hji] using h)

/-- Which pumps publish after one of them has gone on. -/
theorem publishing_of_update {pumps : ℕ → UplinkPhase Bytes} {i j : ℕ} {phase : UplinkPhase Bytes}
    {m : Forwarded Bytes} (h : Function.update pumps i phase j = .publishing m) :
    phase = .publishing m ∨ pumps j = .publishing m := by
  by_cases hji : j = i
  · subst hji
    exact Or.inl (by simpa using h)
  · exact Or.inr (by simpa [hji] using h)

/-- What the pumps hold stays well placed when one of them becomes idle. -/
theorem Placed.idle (h : f.Placed S) (i : ℕ) :
    (∀ j, ∀ m ∈ (Function.update f.pumps i .idle j).load,
        m.subscription = j ∧ S.pumpClass j = some m.cls) ∧
      ∀ j m, Function.update f.pumps i .idle j = .publishing m →
        S.policy.classEnabled m.cls = true := by
  constructor
  · intro j m hm
    rcases mem_load_update hm with ⟨-, hm⟩ | hm
    · cases hm
    · exact h.pump j m hm
  · intro j m hm
    rcases publishing_of_update hm with hm | hm
    · cases hm
    · exact h.publishing j m hm

/-- Messages stay well placed while some move between the delivered ones, the buffer and the
watcher, or join them as events of an enabled class. -/
theorem Placed.shift (h : f.Placed S) (hhanded : f'.handed = f.handed)
    (hreceived : f'.received = f.received)
    (hpumps : f'.pumps = f.pumps ∨ ∃ i, f'.pumps = Function.update f.pumps i .idle)
    (hevt : ∀ m ∈ f'.buffer ++ f'.held.toList, m ∈ f.buffer ++ f.held.toList ∨ m.cls = .evt)
    (hadmitted : ∀ m ∈ f'.delivered ++ f'.buffer ++ f'.held.toList,
      m ∈ f.delivered ++ f.buffer ++ f.held.toList ∨ S.policy.classEnabled m.cls = true) :
    f'.Placed S := by
  have hpump : (∀ i, ∀ m ∈ (f'.pumps i).load, m.subscription = i ∧ S.pumpClass i = some m.cls) ∧
      ∀ i m, f'.pumps i = .publishing m → S.policy.classEnabled m.cls = true := by
    rcases hpumps with hpumps | ⟨i, hpumps⟩
    · rw [hpumps]
      exact ⟨h.pump, h.publishing⟩
    · rw [hpumps]
      exact h.idle i
  refine ⟨hpump.1, ?_, hpump.2, ?_, ?_, ?_⟩
  · intro m hm
    exact (hevt m hm).elim (h.evt m) id
  · intro m hm
    exact (hadmitted m hm).elim (h.admitted m) id
  · rw [hhanded, hreceived]
    exact h.origin
  · rw [hhanded, hreceived]
    exact h.order

/-- Every move keeps the messages well placed. -/
theorem Placed.move (h : f.Placed S) (hmove : Move S f a f' bumps) : f'.Placed S := by
  cases hmove with
  | quiet => exact ⟨h.pump, h.evt, h.publishing, h.admitted, h.origin, h.order⟩
  | refuse _ c =>
    refine ⟨h.pump, h.evt, h.publishing, h.admitted, ?_, fun i => ?_⟩
    · intro m hm
      obtain ⟨c', hc', hfrom⟩ := h.origin m hm
      exact ⟨c', List.mem_append_left _ hc', hfrom⟩
    · apply (h.order i).trans
      simp only [List.filter_append, List.map_append]
      exact List.sublist_append_left _ _
  | hand _ c m hidle hfrom =>
    refine ⟨fun j m' hm => ?_, h.evt, fun j m' hm => ?_, h.admitted, ?_, fun i => ?_⟩
    · rcases mem_load_update hm with ⟨rfl, hload⟩ | hm
      · obtain rfl := List.mem_singleton.mp hload
        exact ⟨rfl, hfrom.pumpClass⟩
      · exact h.pump j m' hm
    · rcases publishing_of_update hm with hm | hm
      · cases hm
      · exact h.publishing j m' hm
    · intro m' hm
      rcases List.mem_append.mp hm with hm | hm
      · obtain ⟨c', hc', hfrom'⟩ := h.origin m' hm
        exact ⟨c', List.mem_append_left _ hc', hfrom'⟩
      · obtain rfl := List.mem_singleton.mp hm
        exact ⟨c, List.mem_append_right _ (List.mem_singleton_self c), hfrom⟩
    · simp only [List.filter_append, List.map_append]
      apply (h.order i).append
      by_cases hi : m.subscription = i
      · simp [hi, hfrom.subscription, hfrom.publish]
      · simp [hi, hfrom.subscription]
  | goLive i now m hpump henabled =>
    refine ⟨fun j m' hm => ?_, h.evt, fun j m' hm => ?_, h.admitted, h.origin, h.order⟩
    · rcases mem_load_update hm with ⟨rfl, hload⟩ | hm
      · exact h.pump j m' (by rw [hpump]; exact hload)
      · exact h.pump j m' hm
    · rcases publishing_of_update hm with hm | hm
      · cases hm
        exact henabled
      · exact h.publishing j m' hm
  | lose _ i => exact h.shift rfl rfl (Or.inr ⟨i, rfl⟩) (fun _ => Or.inl) fun _ => Or.inl
  | deliver _ i m hm =>
    refine h.shift rfl rfl (Or.inr ⟨i, rfl⟩) (fun _ => Or.inl) fun m' hm' => ?_
    simp only [List.append_assoc, List.mem_append, List.mem_singleton] at hm' ⊢
    rcases hm' with hm' | rfl | hm'
    · exact Or.inl (Or.inl hm')
    · exact Or.inr (h.publishing i m' hm)
    · exact Or.inl (Or.inr hm')
  | store _ i m hload hevt henabled =>
    have hen : S.policy.classEnabled m.cls = true := henabled.elim (h.publishing i m) id
    refine h.shift rfl rfl (Or.inr ⟨i, rfl⟩) (fun m' hm' => ?_) fun m' hm' => ?_
    · by_cases hmm : m' = m
      · exact Or.inr (hmm ▸ hevt)
      · exact Or.inl (by simpa [hmm] using hm')
    · by_cases hmm : m' = m
      · exact Or.inr (hmm ▸ hen)
      · exact Or.inl (by simpa [hmm] using hm')
  | evict _ i m oldest rest hload hevt henabled _ hbuffer =>
    have hen : S.policy.classEnabled m.cls = true := henabled.elim (h.publishing i m) id
    refine h.shift rfl rfl (Or.inr ⟨i, rfl⟩) (fun m' hm' => ?_) fun m' hm' => ?_
    · by_cases hmm : m' = m
      · exact Or.inr (hmm ▸ hevt)
      · have hold : m' ∈ rest ∨ f.held = some m' := by simpa [hmm] using hm'
        exact Or.inl (by simp [hbuffer, hold])
    · by_cases hmm : m' = m
      · exact Or.inr (hmm ▸ hen)
      · have hold : m' ∈ f.delivered ∨ m' ∈ rest ∨ f.held = some m' := by simpa [hmm] using hm'
        apply Or.inl
        simp only [hbuffer, List.append_assoc, List.mem_append, List.mem_cons, Option.mem_toList]
        tauto
  | pop _ m rest hheld hbuffer =>
    refine h.shift rfl rfl (Or.inl rfl) (fun m' hm' => Or.inl ?_) fun m' hm' => Or.inl ?_ <;>
      simp only [hheld, hbuffer, Option.toList_some, List.append_assoc, List.mem_append,
        List.mem_cons] at hm' ⊢ <;> tauto
  | replayed _ m hheld =>
    refine h.shift rfl rfl (Or.inl rfl) (fun m' hm' => Or.inl ?_) fun m' hm' => Or.inl ?_ <;>
      simp only [hheld, Option.toList_none, Option.toList_some, List.append_assoc, List.append_nil,
        List.mem_append, List.mem_singleton] at hm' ⊢ <;> tauto
  | requeue _ m hheld =>
    refine h.shift rfl rfl (Or.inl rfl) (fun m' hm' => Or.inl ?_) fun m' hm' => Or.inl ?_ <;>
      simp only [hheld, Option.toList_none, Option.toList_some, List.append_assoc, List.append_nil,
        List.mem_append, List.mem_cons] at hm' ⊢ <;> tauto
  | refuseRequeue _ m hheld =>
    refine h.shift rfl rfl (Or.inl rfl) (fun m' hm' => Or.inl ?_) fun m' hm' => Or.inl ?_ <;>
      simp only [Option.toList_none, List.append_nil] at hm' <;> exact List.mem_append_left _ hm'

/-! ### Every message is in one place -/

/-- What the first `n` pumps hold. -/
def loads (n : ℕ) (pumps : ℕ → UplinkPhase Bytes) : Multiset (Forwarded Bytes) :=
  ∑ i ∈ Finset.range n, ((pumps i).load : Multiset (Forwarded Bytes))

/-- Every place that a message handed to `relay_up` can be in. -/
def places (n : ℕ) (f : Flow Bytes) : Multiset (Forwarded Bytes) :=
  f.delivered + f.discarded + f.buffer + f.held.toList + loads n f.pumps

omit [Inhabited ρ] in
/-- A pump takes a message on. -/
theorem loads_take {n i : ℕ} (hi : i < n) {pumps : ℕ → UplinkPhase Bytes} (hidle : pumps i = .idle)
    (m : Forwarded Bytes) :
    loads n (Function.update pumps i (.handed m)) = loads n pumps + {m} := by
  have hsum := Collections.sum_update (Finset.range n)
    (fun _ phase => (phase.load : Multiset (Forwarded Bytes))) pumps (Finset.mem_range.mpr hi)
    (.handed m)
  simpa [loads, hidle] using hsum

omit [Inhabited ρ] in
/-- A pump starts to publish the message it holds. -/
theorem loads_keep {n i : ℕ} {pumps : ℕ → UplinkPhase Bytes} {m : Forwarded Bytes}
    (hload : (pumps i).load = [m]) :
    loads n (Function.update pumps i (.publishing m)) = loads n pumps := by
  refine Finset.sum_congr rfl fun j _ => ?_
  by_cases hji : j = i
  · subst hji
    simp [hload]
  · simp [hji]

omit [Inhabited ρ] in
/-- A pump gives the message it holds away. -/
theorem loads_release {n i : ℕ} (hi : i < n) {pumps : ℕ → UplinkPhase Bytes} {m : Forwarded Bytes}
    (hload : (pumps i).load = [m]) :
    loads n pumps = loads n (Function.update pumps i .idle) + {m} := by
  have hsum := Collections.sum_update (Finset.range n)
    (fun _ phase => (phase.load : Multiset (Forwarded Bytes))) pumps (Finset.mem_range.mpr hi) .idle
  simpa [loads, hload] using hsum.symm

/-- A pump that holds a message belongs to a subscription. -/
theorem Placed.lt (h : f.Placed S) {i : ℕ} {m : Forwarded Bytes} (hload : (f.pumps i).load = [m]) :
    i < S.deviceSubscriptions.length :=
  Setup.lt_of_pumpClass (h.pump i m (by simp [hload])).2

/-- Every move keeps every message that was handed over in one place. -/
theorem places_of_move (hplaced : f.Placed S) (hmove : Move S f a f' bumps)
    (h : (f.handed : Multiset (Forwarded Bytes)) = f.places S.deviceSubscriptions.length) :
    (f'.handed : Multiset (Forwarded Bytes)) = f'.places S.deviceSubscriptions.length := by
  unfold places at h ⊢
  cases hmove with
  | quiet => exact h
  | refuse => exact h
  | hand _ c m hidle hfrom =>
    rw [loads_take (Setup.lt_of_pumpClass hfrom.pumpClass) hidle, ← Multiset.coe_add, h,
      Multiset.coe_singleton]
    abel
  | goLive i now m hpump =>
    rw [h, loads_keep (by rw [hpump]; rfl)]
  | lose _ i m b hload =>
    rw [h, loads_release (hplaced.lt hload) hload, ← Multiset.coe_add, Multiset.coe_singleton]
    abel
  | deliver _ i m hpump =>
    have hload : (f.pumps i).load = [m] := by rw [hpump]; rfl
    rw [h, loads_release (hplaced.lt hload) hload, ← Multiset.coe_add, Multiset.coe_singleton]
    abel
  | store _ i m hload =>
    rw [h, loads_release (hplaced.lt hload) hload, ← Multiset.coe_add, Multiset.coe_singleton]
    abel
  | evict _ i m oldest rest hload _ _ _ hbuffer =>
    rw [h, loads_release (hplaced.lt hload) hload, hbuffer, ← Multiset.cons_coe,
      ← Multiset.singleton_add, ← Multiset.coe_add, ← Multiset.coe_add, Multiset.coe_singleton,
      Multiset.coe_singleton]
    abel
  | pop _ m rest hheld hbuffer =>
    rw [h, hheld, hbuffer, ← Multiset.cons_coe, ← Multiset.singleton_add]
    simp only [Option.toList_none, Option.toList_some, Multiset.coe_nil, Multiset.coe_singleton]
    abel
  | replayed _ m hheld =>
    rw [h, hheld, ← Multiset.coe_add]
    simp only [Option.toList_none, Option.toList_some, Multiset.coe_nil, Multiset.coe_singleton]
    abel
  | requeue _ m hheld =>
    rw [h, hheld, ← Multiset.cons_coe, ← Multiset.singleton_add]
    simp only [Option.toList_none, Option.toList_some, Multiset.coe_nil, Multiset.coe_singleton]
    abel
  | refuseRequeue _ m hheld =>
    rw [h, hheld, ← Multiset.coe_add]
    simp only [Option.toList_none, Option.toList_some, Multiset.coe_nil, Multiset.coe_singleton]
    abel

/-! ### The counters of a move -/

/-- The number of messages between their reception and their settlement. -/
def inFlight (n : ℕ) (f : Flow Bytes) : ℕ :=
  f.buffer.length + f.held.toList.length + (loads n f.pumps).card

/-- A move settles what it takes out of flight, by the counters it bumps. -/
theorem balance_of_move (hplaced : f.Placed S) (hmove : Move S f a f' bumps) :
    f'.received.length + f.inFlight S.deviceSubscriptions.length =
      f.received.length + (bumps.map Bump.settles).sum +
        f'.inFlight S.deviceSubscriptions.length := by
  have hgoverned : ∀ {i : ℕ} {m : Forwarded Bytes}, (f.pumps i).load = [m] →
      (classIndex m.cls).isSome = true := by
    intro i m hload
    exact Setup.classIndex_isSome_of_pumpClass (hplaced.pump i m (by simp [hload])).2
  unfold inFlight
  cases hmove with
  | quiet => simp
  | refuse =>
    simp only [List.length_append, List.length_singleton, List.map_cons, List.map_nil,
      List.sum_cons, List.sum_nil, Bump.settles]
    omega
  | hand _ c m hidle hfrom =>
    rw [loads_take (Setup.lt_of_pumpClass hfrom.pumpClass) hidle]
    simp; omega
  | goLive i now m hpump =>
    rw [loads_keep (by rw [hpump]; rfl)]
    simp
  | lose _ i m b hload hbump =>
    have hsettles : b.settles = 1 := by
      rcases hbump with rfl | rfl | rfl <;> simp [Bump.settles, hgoverned hload]
    rw [loads_release (hplaced.lt hload) hload]
    simp [hsettles]; omega
  | deliver _ i m hpump =>
    have hload : (f.pumps i).load = [m] := by rw [hpump]; rfl
    rw [loads_release (hplaced.lt hload) hload]
    simp [Bump.settles, hgoverned hload]; omega
  | store _ i m hload =>
    rw [loads_release (hplaced.lt hload) hload]
    simp [Bump.settles]; omega
  | evict _ i m oldest rest hload _ _ _ hbuffer =>
    rw [loads_release (hplaced.lt hload) hload]
    simp [Bump.settles, hbuffer]; omega
  | pop _ m rest hheld hbuffer => simp [hheld, hbuffer]
  | replayed _ m hheld => simp [hheld, Bump.settles]; omega
  | requeue _ m hheld => simp [hheld]
  | refuseRequeue _ m hheld => simp [hheld, Bump.settles]; omega

omit [Inhabited ρ] in
/-- A move puts into the replay buffer what it counts as buffered, and takes out of it and of the
watcher for good what it counts as replayed or dropped. -/
theorem evt_balance_of_move [Inhabited ρ] (hmove : Move S f a f' bumps) :
    f'.buffer.length + f'.held.toList.length + (bumps.map fun b => b.evtFlow.2).sum =
      f.buffer.length + f.held.toList.length + (bumps.map fun b => b.evtFlow.1).sum := by
  cases hmove with
  | lose _ i m b hload hbump => rcases hbump with rfl | rfl | rfl <;> simp [Bump.evtFlow]
  | evict _ i m oldest rest hload _ _ _ hbuffer => simp [Bump.evtFlow, hbuffer]
  | pop _ m rest hheld hbuffer => simp [hheld, hbuffer]
  | replayed _ m hheld => simp [hheld, Bump.evtFlow]
  | requeue _ m hheld => simp [hheld]
  | refuseRequeue _ m hheld => simp [hheld, Bump.evtFlow]
  | store => simp [Bump.evtFlow]; omega
  | _ => simp [Bump.evtFlow]

end Flow

namespace Uplink

variable {S : Setup Bytes ρ}

/-- What every state of the uplink tasks keeps. -/
structure Books (S : Setup Bytes ρ) (s : Uplink Bytes) : Prop where
  wf : s.Wf S
  placed : s.flow.Placed S
  places : (s.handed : Multiset (Forwarded Bytes)) =
    s.flow.places S.deviceSubscriptions.length

/-- The books are right at the start. -/
theorem books_start (S : Setup Bytes ρ) (siteUp : Bool) : (start S siteUp).Books S where
  wf := ⟨.refl _, .start _⟩
  placed := by
    refine ⟨?_, ?_, ?_, ?_, ?_, ?_⟩ <;>
      simp [flow, start, UplinkPolicy.fromConfig, Watcher.held, Bus.start]
  places := by
    simp [flow, start, Flow.places, Flow.loads, UplinkPolicy.fromConfig, Watcher.held]

/-- A step keeps the books right, and moves the messages. -/
theorem Books.step {s s' : Uplink Bytes} {a : UplinkAction Bytes} {bumps : List Bump}
    (h : s.Books S) (hstep : s.step S a = some (s', bumps)) :
    s'.Books S ∧ Flow.Move S s.flow a s'.flow bumps := by
  obtain ⟨hwf, hmove⟩ := (step_move hstep).flow h.wf (fun i m hm => (h.placed.pump i m hm).2)
  exact ⟨⟨hwf, h.placed.move hmove, Flow.places_of_move h.placed hmove h.places⟩, hmove⟩

/-- The books are right in every state of every run. -/
theorem books {P : Uplink Bytes → UplinkAction Bytes → Prop} {s : Uplink Bytes}
    (h : (system S).Reachable P s) : s.Books S := by
  apply h.invariant
  · rintro s ⟨siteUp, rfl⟩
    exact books_start S siteUp
  · intro s a s' _ hbooks _ hstep
    obtain ⟨⟨s'', bumps⟩, hs, rfl⟩ := Option.map_eq_some_iff.mp hstep
    exact (hbooks.step hs).1

/-- An invariant of the message flow that every guarded move keeps holds in every state of every
guarded run. -/
theorem flow_invariant {P : Uplink Bytes → UplinkAction Bytes → Prop} {I : Flow Bytes → Prop}
    (hinit : ∀ siteUp, I (start S siteUp).flow)
    (hmove : ∀ s a f' bumps, s.Books S → I s.flow → P s a → Flow.Move S s.flow a f' bumps → I f')
    {s : Uplink Bytes} (h : (system S).Reachable P s) : I s.flow := by
  apply h.invariant (I := fun s => I s.flow)
  · rintro s ⟨siteUp, rfl⟩
    exact hinit siteUp
  · intro s a s' hreach hI hP hstep
    obtain ⟨⟨s'', bumps⟩, hs, rfl⟩ := Option.map_eq_some_iff.mp hstep
    exact hmove s a _ bumps (books hreach) hI hP ((books hreach).step hs).2

/-- A subscription hands every publish over at most once, in publish order. -/
theorem Books.handed_ordered {s : Uplink Bytes} (h : s.Books S) (i : ℕ) :
    ((s.handed.filter fun m => m.subscription = i).map Forwarded.publish).Pairwise (· < ·) :=
  (h.wf.bus.received_ordered i).sublist (h.placed.order i)

/-- Of the copy of a publish in a subscription at most one message is delivered. -/
theorem Books.delivered_once {s : Uplink Bytes} (h : s.Books S) (p i : ℕ) :
    ((s.delivered.filter fun m => m.subscription = i).filter fun m =>
      m.publish = p).length ≤ 1 := by
  have hsubperm : s.delivered.Subperm s.handed := by
    rw [← Multiset.coe_le, h.places]
    simp only [Flow.places, add_assoc]
    exact Multiset.le_add_right _ _
  have hnodup := (h.handed_ordered i).imp (S := (· ≠ ·)) (fun hlt => hlt.ne)
  exact ((hsubperm.filter fun m => m.subscription = i).filter fun m =>
    m.publish = p).length_le.trans (Collections.length_filter_le_one_of_nodup hnodup p)

/-- A message is being published on the site broker, live or by replay, or has been. -/
def Sent (s : Uplink Bytes) (m : Forwarded Bytes) : Prop :=
  m ∈ s.delivered ∨ s.watcher.held = some m ∨ ∃ i, s.pumps i = .publishing m

/-- What is published on the site broker is of an enabled class. -/
theorem Books.sent_enabled {s : Uplink Bytes} (h : s.Books S) {m : Forwarded Bytes}
    (hm : s.Sent m) : S.policy.classEnabled m.cls = true := by
  rcases hm with hm | hm | ⟨i, hm⟩
  · exact h.placed.admitted m (List.mem_append_left _ (List.mem_append_left _ hm))
  · exact h.placed.admitted m (List.mem_append_right _ (Option.mem_toList.mpr hm))
  · exact h.placed.publishing i m hm

/-- What is published on the site broker was handed to `relay_up`. -/
theorem Books.handed_of_sent {s : Uplink Bytes} (h : s.Books S) {m : Forwarded Bytes}
    (hm : s.Sent m) : m ∈ s.handed := by
  rw [← Multiset.mem_coe, h.places]
  simp only [Flow.places, Multiset.mem_add, Multiset.mem_coe, Option.mem_toList]
  rcases hm with hm | hm | ⟨i, hm⟩
  · exact Or.inl (Or.inl (Or.inl (Or.inl hm)))
  · exact Or.inl (Or.inr hm)
  · have hload : (s.pumps i).load = [m] := by rw [hm]; rfl
    refine Or.inr (Multiset.mem_sum.mpr ⟨i, Finset.mem_range.mpr (h.placed.lt hload), ?_⟩)
    exact Multiset.mem_coe.mpr (hload ▸ List.mem_singleton_self m)

/-! ### Quiescent states -/

/-- No task is between two of its steps. -/
structure Quiescent (s : Uplink Bytes) : Prop where
  pumps : ∀ i, s.pumps i = .idle
  watcher : s.watcher.phase = .starting ∨ s.watcher.phase = .waiting

/-- Whether all pumps of subscriptions and the watcher are between two rounds. -/
def isQuiescent (S : Setup Bytes ρ) (s : Uplink Bytes) : Bool :=
  (List.range S.deviceSubscriptions.length).all (fun i => (s.pumps i).load.isEmpty) &&
  match s.watcher.phase with
    | .starting | .waiting => true
    | _ => false

/-- The test finds the quiescent states of a run. -/
theorem Books.quiescent {s : Uplink Bytes} (h : s.Books S)
    (htest : s.isQuiescent S = true) : s.Quiescent := by
  simp only [isQuiescent, Bool.and_eq_true, List.all_eq_true, List.mem_range,
    List.isEmpty_iff] at htest
  obtain ⟨hpumps, hwatcher⟩ := htest
  have hload : ∀ i, (s.pumps i).load = [] := by
    intro i
    by_cases hi : i < S.deviceSubscriptions.length
    · exact hpumps i hi
    · refine List.eq_nil_iff_forall_not_mem.mpr fun m hm => hi ?_
      exact Setup.lt_of_pumpClass (h.placed.pump i m hm).2
  refine ⟨fun i => ?_, ?_⟩
  · cases hphase : s.pumps i with
    | idle => rfl
    | handed m => simpa [hphase] using hload i
    | publishing m => simpa [hphase] using hload i
  · split at hwatcher
    · exact Or.inl (by assumption)
    · exact Or.inr (by assumption)
    · cases hwatcher

omit [Inhabited ρ] in
/-- The watcher of a quiescent state holds no event. -/
theorem Quiescent.held {s : Uplink Bytes} (h : s.Quiescent) : s.watcher.held = none := by
  rcases h.watcher with hphase | hphase <;> simp [Watcher.held, hphase]

omit [Inhabited ρ] in
/-- Nothing but the replay buffer is in flight in a quiescent state. -/
theorem Quiescent.inFlight {s : Uplink Bytes} (h : s.Quiescent) (n : ℕ) :
    s.flow.inFlight n = s.policy.evtBuffer.length := by
  simp [Flow.inFlight, Flow.loads, flow, h.held, h.pumps]

end Uplink

end UnsBridge
