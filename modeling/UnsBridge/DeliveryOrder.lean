import UnsBridge.Process

/-!
# Messages and commands in their order

Events may take the detour of the replay buffer.  Everything else goes straight through its pump, so
that each subscription delivers in the order in which its messages were published, whatever the
other pumps do, `Uplink.InTurn`; and so do the subscriptions on the site broker with the commands,
which is what their books track.  `order_kept` says both of the whole life of the process.
-/

namespace UnsBridge

open Transition

variable {Bytes ρ : Type} [Inhabited ρ]

namespace Flow

/-- What a subscription has delivered, and then what its pump holds, are some of the messages that
it has handed over, in their order. -/
def InTurn (i : ℕ) (f : Flow Bytes) : Prop :=
  (f.delivered.filter (fun m => m.subscription = i) ++ (f.pumps i).load).Sublist
    (f.handed.filter fun m => m.subscription = i)

variable {S : Setup Bytes ρ} {f f' : Flow Bytes} {i : ℕ} {a : UplinkAction Bytes}
  {bumps : List Bump}

omit [Inhabited ρ] in
/-- Moves that concern other subscriptions. -/
theorem InTurn.of_same (h : InTurn i f) (hpump : f'.pumps i = f.pumps i)
    (hhanded : f'.handed.filter (fun m => m.subscription = i) =
      f.handed.filter fun m => m.subscription = i)
    (hdelivered : f'.delivered.filter (fun m => m.subscription = i) =
      f.delivered.filter fun m => m.subscription = i) : InTurn i f' := by
  unfold InTurn
  rw [hpump, hhanded, hdelivered]
  exact h

/-- A pump that gives its message away leaves what has been delivered in turn. -/
theorem InTurn.release (h : InTurn i f) {j : ℕ} (discarded buffer : List (Forwarded Bytes)) :
    InTurn i { f with discarded, buffer, pumps := Function.update f.pumps j .idle } := by
  by_cases hji : j = i
  · subst hji
    unfold InTurn
    simpa using (List.sublist_append_left _ _).trans h
  · exact h.of_same (by simp [Ne.symm hji]) rfl rfl

/-- Every move keeps the messages of a subscription in turn, unless they are events. -/
theorem InTurn.move (h : InTurn i f) (hplaced : f.Placed S) {cls : UnsClass}
    (hi : S.pumpClass i = some cls) (hcls : cls ≠ .evt)
    (hclass : ∀ m ∈ f.handed, S.pumpClass m.subscription = some m.cls)
    (hheld : ∀ m ∈ f.held.toList, m ∈ f.handed)
    (hmove : Move S f a f' bumps) : InTurn i f' := by
  cases hmove with
  | hand _ c m hidle hfrom =>
    by_cases hmi : m.subscription = i
    · have hload : (f.pumps i).load = [] := by rw [← hmi, hidle]; rfl
      unfold InTurn at h ⊢
      rw [hload, List.append_nil] at h
      simpa [hmi] using h.append (List.Sublist.refl [m])
    · exact h.of_same (by simp [Ne.symm hmi]) (by simp [hmi]) rfl
  | goLive j now m hpump =>
    by_cases hji : j = i
    · subst hji
      have hload : (f.pumps j).load = [m] := by rw [hpump]; rfl
      unfold InTurn at h ⊢
      simpa [hload] using h
    · exact h.of_same (by simp [Ne.symm hji]) rfl rfl
  | lose _ j m b hload => exact h.release _ _
  | store _ j m hload => exact h.release _ _
  | evict _ j m oldest rest hload => exact h.release _ _
  | deliver _ j m hpump =>
    have hload : (f.pumps j).load = [m] := by rw [hpump]; rfl
    have hmj := (hplaced.pump j m (by simp [hload])).1
    by_cases hji : j = i
    · subst hji
      unfold InTurn at h ⊢
      simpa [hload, hmj] using h
    · have hmi : m.subscription ≠ i := hmj ▸ hji
      exact h.of_same (by simp [Ne.symm hji]) rfl (by simp [hmi])
  | replayed _ m hm =>
    -- what is replayed is an event, and comes from a subscription of events
    have hmem : m ∈ f.held.toList := by simp [hm]
    have hevt := hplaced.evt m (List.mem_append_right _ hmem)
    have hmi : m.subscription ≠ i := by
      rintro rfl
      have hsame := hclass m (hheld m hmem)
      rw [hi, hevt] at hsame
      exact hcls (Option.some.inj hsame)
    exact h.of_same rfl rfl (by simp [hmi])
  | _ => exact h

end Flow

namespace Uplink

variable {S : Setup Bytes ρ}

/-- The messages of a subscription are in turn from the start of the relay to the end of the
process, unless they are events. -/
theorem kept_inTurn (S : Setup Bytes ρ) {i : ℕ} {cls : UnsClass} (hi : S.pumpClass i = some cls)
    (hcls : cls ≠ .evt) : Kept S fun s => s.Books S ∧ s.flow.InTurn i where
  start siteUp := ⟨books_start S siteUp, by simp [Flow.InTurn, flow, Uplink.start]⟩
  step s a s' bumps h hstep := by
    obtain ⟨hbooks, hmove⟩ := h.1.step hstep
    refine ⟨hbooks, h.2.move h.1.placed hi hcls (fun m hm => ?_) (fun m hm => ?_) hmove⟩
    · obtain ⟨c, -, hfrom⟩ := h.1.placed.origin m hm
      exact hfrom.pumpClass
    · exact h.1.handed_of_sent (Or.inr (Or.inl (Option.mem_toList.mp hm)))
  publish s n topic payload h := ⟨(kept_books S).publish s n topic payload h.1, h.2⟩

end Uplink

/-- The bridge keeps the order.  In every state of the process, whatever pumps, watcher and sweep do
in between, what a subscription on the device bus has delivered to the site was published there in
this order, unless it is a subscription of events, and what a subscription on the site broker has
published on the device bus was published on the site in this order; nothing is delivered or
published twice. -/
theorem order_kept (S : Setup Bytes ρ) {p : Process Bytes}
    (h : (Process.system S).Reachable System.anyStep p) {io : RelayIo Bytes}
    (hio : p.io = some io) :
    (∀ i cls, S.pumpClass i = some cls → cls ≠ .evt →
      ((io.up.delivered.filter fun m => m.subscription = i).map Forwarded.publish).Pairwise
        (· < ·)) ∧
    ∀ i, (((io.down.log.filterMap DownlinkEvent.commandedCopy).filter fun c =>
      c.subscription = i).map Copy.publish).Pairwise (· < ·) := by
  refine ⟨fun i cls hi hcls => ?_, fun i => ?_⟩
  · obtain ⟨hbooks, hturn⟩ := Process.uplink_invariant (Uplink.kept_inTurn S hi hcls) h io hio
    have hdelivered := (List.sublist_append_left _ _).trans hturn
    exact (hbooks.handed_ordered i).sublist (hdelivered.map Forwarded.publish)
  · have hbooks := Process.downlink_invariant (Downlink.kept_books S) h io hio
    exact hbooks.commanded.once hbooks.bus i

/-- Two `state` messages of device `gw-01` reach the site in their order. -/
theorem order_kept_gw01 : ∃ io : RelayIo (Message Unit),
    io.up.delivered.map Forwarded.publish = [0, 1] ∧
    ((io.up.delivered.filter fun m => m.subscription = 0).map Forwarded.publish).Pairwise
      (· < ·) := by
  obtain ⟨p, hp, hobs⟩ := System.exists_reachable_of_exec (M := Process.system Setup.gw01)
    (P := System.anyStep) (fun _ _ => true) (fun _ _ _ => trivial) (.init rfl)
    (Process.startRun ++ Process.relayRun (Process.stateRun ++ Process.stateRun))
    (fun p => p.io.map fun io => io.up.delivered.map Forwarded.publish) (x := some [0, 1])
    (by decide +kernel)
  obtain ⟨io, hio, hdelivered⟩ := Option.map_eq_some_iff.mp hobs
  exact ⟨io, hdelivered, (order_kept Setup.gw01 hp hio).1 0 .state (by decide) (by decide)⟩

end UnsBridge
