import UnsBridge.Io.RelayIo

/-!
# The order of events

An event can reach the site on two ways, live through its pump or by replay through the watcher.
`Flow.line` lines the events up that have been or can be delivered, the delivered ones first, then
the one that the watcher holds, then the buffer; with the event of the pump behind it, the line of
one subscription is in the order of reception (`Flow.InOrder`).  One step breaks this: a live
publish that is admitted while the watcher holds a popped event of the same subscription and the
buffer is empty overtakes that event.  In runs without it the events of a subscription reach the
site in the order in which it received them, `events_in_order`.
-/

namespace UnsBridge

open Transition

variable {Bytes ρ : Type} [Inhabited ρ]

namespace Flow

variable {S : Setup Bytes ρ} {f f' : Flow Bytes} {i : ℕ}

/-- What has been delivered, then what the watcher will deliver, in order. -/
def line (f : Flow Bytes) : List (Forwarded Bytes) := f.delivered ++ f.held.toList ++ f.buffer

/-- The messages of a subscription, from the first one delivered to the one its pump holds, are in
the order in which they were handed over; and while the pump publishes, nothing of the subscription
waits for a replay. -/
structure InOrder (i : ℕ) (f : Flow Bytes) : Prop where
  sublist : (f.line.filter (fun m => m.subscription = i) ++ (f.pumps i).load).Sublist
    (f.handed.filter fun m => m.subscription = i)
  alone : ∀ m, f.pumps i = .publishing m →
    ∀ m' ∈ f.held.toList ++ f.buffer, m'.subscription ≠ i

/-- The step that overtakes: a pump goes live with an event while the watcher holds a popped event
of the same subscription. -/
def NoOvertaking (s : Uplink Bytes) (a : UplinkAction Bytes) : Prop :=
  ∀ i now m m', a = .relayUp i now → s.pumps i = .handed m → m.cls = .evt → s.siteUp = true →
    s.policy.evtBuffer = [] → s.watcher.held = some m' → m'.subscription ≠ i

/-- Moves that leave the pump of the subscription alone keep its events in order if they add nothing
of it to the line and to what waits for a replay. -/
theorem InOrder.mono (h : InOrder i f) (hpump : f'.pumps i = f.pumps i)
    (hhanded : f'.handed.filter (fun m => m.subscription = i) =
      f.handed.filter fun m => m.subscription = i)
    (hline : (f'.line.filter fun m => m.subscription = i).Sublist
      (f.line.filter fun m => m.subscription = i))
    (hwait : ∀ m ∈ f'.held.toList ++ f'.buffer, m.subscription = i →
      m ∈ f.held.toList ++ f.buffer) :
    InOrder i f' := by
  constructor
  · rw [hpump, hhanded]
    exact (hline.append_right _).trans h.sublist
  · intro m hm m' hm' hsub
    exact h.alone m (hpump ▸ hm) m' (hwait m' hm' hsub) hsub

/-- Every move keeps the events of a subscription in order, unless it overtakes. -/
theorem InOrder.move {s : Uplink Bytes} {a : UplinkAction Bytes} {bumps : List Bump}
    (h : InOrder i s.flow) (hplaced : s.flow.Placed S) (hi : S.pumpClass i = some .evt)
    (hmax : 0 < S.policy.evtBufferMax) (hguard : NoOvertaking s a)
    (hmove : Move S s.flow a f' bumps) : InOrder i f' := by
  have hline := h.sublist
  have hsub : ∀ {j m}, (s.flow.pumps j).load = [m] → m.subscription = j :=
    fun {j m} hload => (hplaced.pump j m (by simp [hload])).1
  cases hmove with
  | quiet => exact h.mono rfl rfl (.refl _) fun _ hm _ => hm
  | refuse => exact h.mono rfl rfl (.refl _) fun _ hm _ => hm
  | hand _ c m hidle hfrom =>
    by_cases hmi : m.subscription = i
    · refine ⟨?_, fun m' hm' => by simp [hmi] at hm'⟩
      have hload : (s.flow.pumps i).load = [] := by rw [← hmi, hidle]; rfl
      rw [hload, List.append_nil] at hline
      simpa [line, hmi] using hline.append (List.Sublist.refl [m])
    · exact h.mono (by simp [Ne.symm hmi]) (by simp [hmi]) (.refl _) fun _ hm _ => hm
  | goLive j now m hpump henabled hup hempty =>
    by_cases hji : j = i
    · subst hji
      have hload : (s.flow.pumps j).load = [m] := by rw [hpump]; rfl
      have hevt : m.cls = .evt := by
        have hcls := (hplaced.pump j m (by simp [hload])).2
        rw [hi] at hcls
        exact (Option.some.inj hcls).symm
      refine ⟨by simpa [line, hload] using hline, fun _ _ m' hm' => ?_⟩
      have hbuffer : s.policy.evtBuffer = [] := hempty hevt hmax
      have hheld : s.watcher.held = some m' := by
        simpa [Uplink.flow, hbuffer] using hm'
      exact hguard j now m m' rfl hpump hevt hup hbuffer hheld
    · exact h.mono (by simp [Ne.symm hji]) rfl (.refl _) fun _ hm _ => hm
  | lose _ j m b hload =>
    by_cases hji : j = i
    · subst hji
      refine ⟨?_, fun m' hm' => by simp at hm'⟩
      simpa [line] using (List.sublist_append_left _ _).trans hline
    · exact h.mono (by simp [Ne.symm hji]) rfl (.refl _) fun _ hm _ => hm
  | deliver _ j m hpump =>
    have hload : (s.flow.pumps j).load = [m] := by rw [hpump]; rfl
    have hmj := hsub hload
    by_cases hji : j = i
    · subst hji
      refine ⟨?_, fun m' hm' => by simp at hm'⟩
      -- nothing of the subscription waits behind the delivered event
      have hnone :
          (s.flow.held.toList ++ s.flow.buffer).filter (fun m' => m'.subscription = j) = [] :=
        List.filter_eq_nil_iff.mpr fun m' hm' => by simpa using h.alone m hpump m' hm'
      rw [List.filter_append] at hnone
      obtain ⟨hheld, hbuffer⟩ := List.append_eq_nil_iff.mp hnone
      simpa [line, hload, hmj, hheld, hbuffer] using hline
    · have hmi : m.subscription ≠ i := hmj ▸ hji
      exact h.mono (by simp [Ne.symm hji]) rfl (by simp [line, hmi]) fun _ hm _ => hm
  | store _ j m hload =>
    have hmj := hsub hload
    by_cases hji : j = i
    · subst hji
      refine ⟨?_, fun m' hm' => by simp at hm'⟩
      simpa [line, hload, hmj] using hline
    · have hmi : m.subscription ≠ i := hmj ▸ hji
      refine h.mono (by simp [Ne.symm hji]) rfl (by simp [line, hmi]) fun m' hm' hm'i => ?_
      simp only [List.mem_append, List.mem_singleton] at hm' ⊢
      rcases hm' with hm' | hm' | rfl
      · exact Or.inl hm'
      · exact Or.inr hm'
      · exact absurd hm'i hmi
  | evict _ j m oldest rest hload _ _ _ hbuffer =>
    have hmj := hsub hload
    have hrest : (s.flow.delivered ++ s.flow.held.toList ++ rest).Sublist s.flow.line := by
      rw [line, hbuffer]
      exact (List.sublist_cons_self oldest rest).append_left _
    by_cases hji : j = i
    · subst hji
      refine ⟨?_, fun m' hm' => by simp at hm'⟩
      have happend := ((hrest.filter fun m' => m'.subscription = j).append_right [m])
      rw [hload] at hline
      simpa [line, hmj] using happend.trans hline
    · have hmi : m.subscription ≠ i := hmj ▸ hji
      refine h.mono (by simp [Ne.symm hji]) rfl ?_ fun m' hm' hm'i => ?_
      · simpa [line, hmi] using hrest.filter fun m' => m'.subscription = i
      · simp only [hbuffer, List.mem_append, List.mem_cons, List.not_mem_nil, or_false] at hm' ⊢
        rcases hm' with hm' | hm' | rfl
        · exact Or.inl hm'
        · exact Or.inr (Or.inr hm')
        · exact absurd hm'i hmi
  | pop _ m rest hheld hbuffer =>
    refine h.mono rfl rfl (by simp [line, hheld, hbuffer]) fun m' hm' _ => ?_
    simpa [hheld, hbuffer] using hm'
  | replayed _ m hheld =>
    refine h.mono rfl rfl (by simp [line, hheld]) fun m' hm' _ => ?_
    exact List.mem_append_right _ (by simpa using hm')
  | requeue _ m hheld =>
    refine h.mono rfl rfl (by simp [line, hheld]) fun m' hm' _ => ?_
    simpa [hheld] using hm'
  | refuseRequeue _ m hheld =>
    refine h.mono rfl rfl ?_ fun m' hm' _ => ?_
    · apply List.Sublist.filter _
      simp [line]
    · exact List.mem_append_right _ (by simpa using hm')

omit [Inhabited ρ] in
/-- The events of a subscription are in order at the start. -/
theorem inOrder_start (S : Setup Bytes ρ) (siteUp : Bool) (i : ℕ) :
    InOrder i (Uplink.start S siteUp).flow := by
  constructor
  · simp [Uplink.flow, Uplink.start, line, UplinkPolicy.fromConfig, Watcher.held]
  · intro m hm
    cases hm

end Flow

/-- Events never overtake each other, except by the overtaking step.  With the replay buffer on, in
every run without that step the events that an event subscription has delivered to the site, live
or by replay, are in the order in which the subscription received them, and none of them is there
twice. -/
theorem events_in_order (S : Setup Bytes ρ) (hmax : 0 < S.policy.evtBufferMax) (i : ℕ)
    (hi : S.pumpClass i = some .evt) {s : RelayIo Bytes}
    (h : (RelayIo.system S).Reachable (RelayIo.onUp Flow.NoOvertaking) s) :
    ((s.up.delivered.filter fun m => m.subscription = i).map Forwarded.publish).Sublist
      ((s.up.bus.received.filter fun c => c.subscription = i).map Copy.publish) := by
  have hup := RelayIo.reachable_up h
  have horder : Flow.InOrder i s.up.flow := by
    refine Uplink.flow_invariant (fun siteUp => Flow.inOrder_start S siteUp i) ?_ hup
    exact fun t a f' bumps hbooks hI hP hmove => hI.move hbooks.placed hi hmax hP hmove
  have hdelivered : (s.up.delivered.filter fun m => m.subscription = i).Sublist
      (s.up.flow.line.filter fun m => m.subscription = i) := by
    apply List.Sublist.filter _
    rw [Flow.line, List.append_assoc]
    exact List.sublist_append_left _ _
  have hhanded := hdelivered.trans ((List.sublist_append_left _ _).trans horder.sublist)
  exact (hhanded.map _).trans ((Uplink.books hup).placed.order i)

/-- A sufficient test for a step not to overtake. -/
def heldNothing (s : RelayIo Bytes) : RelayIoAction Bytes → Bool
  | .up (.relayUp _ _) => s.up.watcher.held.isNone
  | _ => true

omit [Inhabited ρ] in
/-- A step that passes the test does not overtake. -/
theorem noOvertaking_of_heldNothing (s : RelayIo Bytes) (a : RelayIoAction Bytes)
    (h : heldNothing s a = true) : RelayIo.onUp Flow.NoOvertaking s a := by
  rintro b rfl i now m m' rfl - - - - hheld
  rw [heldNothing, hheld] at h
  cases h

/-- Two events are received.  The first one is buffered while the link is down, and replayed when it
is up again; then the second one goes live. -/
def orderedRun : List (RelayIoAction (Message Unit)) :=
  [.up (.publish "ecv1/gw-01/adapter/main/evt/alarm" (.sample none)),
    .up (.publish "ecv1/gw-01/adapter/main/evt/alarm" (.sample none)),
    .up .watch, .up (.link false), .up (.recv 4), .up (.relayUp 4 0), .up (.link true),
    .up .watch, .up .watch, .up .watch, .up .watch, .up (.watchPublished .ok),
    .up (.recv 4), .up (.relayUp 4 0), .up (.published 4 .ok)]

/-- The relay of device `gw-01` delivers the two events in order. -/
theorem events_in_order_gw01 : ∃ s : RelayIo (Message Unit),
    (s.up.delivered.filter fun m => m.subscription = 4).map Forwarded.publish = [0, 1] ∧
      ((s.up.delivered.filter fun m => m.subscription = 4).map Forwarded.publish).Sublist
        ((s.up.bus.received.filter fun c => c.subscription = 4).map Copy.publish) := by
  obtain ⟨s, hs, hobs⟩ := System.exists_reachable_of_exec (M := RelayIo.system Setup.gw01)
    heldNothing noOvertaking_of_heldNothing (.init ⟨true, rfl⟩) orderedRun
    (fun s => (s.up.delivered.filter fun m => m.subscription = 4).map Forwarded.publish) rfl
  exact ⟨s, hobs, events_in_order Setup.gw01 (by decide) 4 rfl hs⟩

/-! ### A run in which an event overtakes -/

/-- Two events are received.  The first one is buffered while the link is down, and popped by the
watcher when it is up again; while its replay is in flight, the second one finds the buffer empty
and goes live.  The calls return in their order: the replay fails, the live publish succeeds, and
the watcher replays the first event at its next tick. -/
def overtakingRun : List (RelayIoAction (Message Unit)) :=
  [.up (.publish "ecv1/gw-01/adapter/main/evt/alarm" (.sample none)),
    .up (.publish "ecv1/gw-01/adapter/main/evt/alarm" (.sample none)),
    .up .watch, .up (.link false), .up (.recv 4), .up (.relayUp 4 0), .up (.link true),
    .up .watch, .up .watch, .up .watch, .up .watch, .up (.recv 4), .up (.relayUp 4 0),
    .up (.watchPublished .failed), .up (.published 4 .ok), .up .watch, .up .watch, .up .watch,
    .up .watch, .up (.watchPublished .ok)]

/-- The relay of device `gw-01` with the default configuration can deliver two events of one
subscription in the wrong order. -/
theorem event_overtakes : ∃ s, (RelayIo.system Setup.gw01).Reachable System.anyStep s ∧
    (Setup.gw01.policy.classEnabled .evt, Setup.gw01.policy.evtBufferMax, Setup.gw01.pumpClass 4) =
      (true, 1000, some .evt) ∧
    ((s.up.delivered.filter fun m => m.subscription = 4).map Forwarded.publish,
      (s.up.bus.received.filter fun c => c.subscription = 4).map Copy.publish) =
      ([1, 0], [0, 1]) := by
  obtain ⟨s, hs, hobs⟩ := System.exists_reachable_of_exec (M := RelayIo.system Setup.gw01)
    (fun _ _ => true) (fun _ _ _ => trivial) (.init ⟨true, rfl⟩) overtakingRun
    (fun s => ((s.up.delivered.filter fun m => m.subscription = 4).map Forwarded.publish,
      (s.up.bus.received.filter fun c => c.subscription = 4).map Copy.publish)) rfl
  exact ⟨s, hs, rfl, hobs⟩

end UnsBridge
