import UnsBridge.Io.RelayIo

/-!
# No event is lost while the backlog fits the buffer

An event that was handed to `relay_up` is in one of four places until it is delivered: with its
pump, in the replay buffer, with the watcher, or back in the buffer.  It can be dropped in two of
them, by a push into a full buffer and by a refused requeue.  As long as the events handed over and
not yet delivered number at most the bound of the buffer, neither happens: the event that is being
pushed or requeued is one of them, so that the buffer has room for it.
-/

namespace UnsBridge

open Transition

variable {Bytes ρ : Type} [Inhabited ρ]

/-- The events handed over and not yet delivered: those in the buffer, the one popped for its
replay, and those that pumps hold. -/
def Flow.backlog (S : Setup Bytes ρ) (f : Flow Bytes) : ℕ :=
  f.buffer.length + f.held.toList.length +
    (Flow.loads S.deviceSubscriptions.length f.pumps).countP fun m => m.cls = .evt

namespace Flow

variable {S : Setup Bytes ρ} {f f' : Flow Bytes} {a : UplinkAction Bytes} {bumps : List Bump}

/-- An event that a pump holds is part of the backlog. -/
theorem backlog_of_load (hplaced : f.Placed S) {i : ℕ} {m : Forwarded Bytes}
    (hload : (f.pumps i).load = [m]) (hevt : m.cls = .evt) :
    f.buffer.length + f.held.toList.length + 1 ≤ f.backlog S := by
  have hcount := Multiset.countP_add (fun m => m.cls = UnsClass.evt)
    (Flow.loads S.deviceSubscriptions.length (Function.update f.pumps i .idle)) {m}
  have hone : Multiset.countP (fun m => m.cls = UnsClass.evt) {m} = 1 :=
    Multiset.countP_cons_of_pos (p := fun m : Forwarded Bytes => m.cls = .evt) 0 hevt
  rw [← Flow.loads_release (hplaced.lt hload) hload, hone] at hcount
  unfold backlog
  omega

/-- A move discards no event while the backlog fits the buffer. -/
theorem discarded_of_move (hmax : 0 < S.policy.evtBufferMax)
    (henabled : S.policy.classEnabled .evt = true) (hcap : S.policy.hasRateCap .evt = false)
    (hplaced : f.Placed S) (hfits : f.backlog S ≤ S.policy.evtBufferMax)
    (hmove : Move S f a f' bumps) (h : ∀ m ∈ f.discarded, m.cls ≠ .evt) :
    ∀ m ∈ f'.discarded, m.cls ≠ .evt := by
  cases hmove with
  | lose _ i m b hload hbump hlossy =>
    intro m' hm'
    rcases List.mem_append.mp hm' with hm' | hm'
    · exact h m' hm'
    · rw [List.mem_singleton.mp hm']
      intro hevt
      rcases hlossy hevt hmax with hdisabled | hcapped
      · rw [henabled] at hdisabled
        cases hdisabled
      · rw [hcap] at hcapped
        cases hcapped
  | evict _ i m oldest rest hload hevt _ hfull hbuffer =>
    have hroom := backlog_of_load hplaced hload hevt
    omega
  | refuseRequeue _ m hheld hfull =>
    have hheld' : f.held.toList.length = 1 := by rw [hheld]; rfl
    unfold backlog at hfits
    omega
  | _ => exact h

end Flow

/-- No event is lost while the backlog fits the buffer.  With `evt` enabled and not capped and the
replay buffer on, an event handed to `relay_up` is delivered to the site at most once in every run;
and in every run in which the backlog has fitted the buffer so far, no event has been discarded, and
each one is delivered, in the buffer, with the watcher or with its pump. -/
theorem no_event_lost (S : Setup Bytes ρ) (hmax : 0 < S.policy.evtBufferMax)
    (henabled : S.policy.classEnabled .evt = true) (hcap : S.policy.hasRateCap .evt = false) :
    (∀ s, (RelayIo.system S).Reachable System.anyStep s → ∀ m ∈ s.up.handed, m.cls = .evt →
      ((s.up.delivered.filter fun m' => m'.subscription = m.subscription).filter
        fun m' => m'.publish = m.publish).length ≤ 1) ∧
    ∀ s, (RelayIo.system S).Reachable
        (fun t _ => t.up.flow.backlog S ≤ S.policy.evtBufferMax) s →
      (∀ m ∈ s.up.discarded, m.cls ≠ .evt) ∧
      ∀ m ∈ s.up.handed, m.cls = .evt → m ∈ s.up.delivered ∨ m ∈ s.up.policy.evtBuffer ∨
        s.up.watcher.held = some m ∨ ∃ i, m ∈ (s.up.pumps i).load := by
  constructor
  · intro s hs m _ _
    have hup := RelayIo.reachable_up (R := System.anyStep) (hs.mono fun _ _ _ _ _ => trivial)
    exact (Uplink.books hup).delivered_once m.publish m.subscription
  · intro s hs
    have hup := RelayIo.reachable_up
      (R := fun t _ => t.flow.backlog S ≤ S.policy.evtBufferMax)
      (hs.mono fun _ _ hfits _ _ => hfits)
    have hkept : ∀ m ∈ s.up.flow.discarded, m.cls ≠ .evt := by
      refine Uplink.flow_invariant (I := fun f => ∀ m ∈ f.discarded, m.cls ≠ .evt) ?_ ?_ hup
      · intro siteUp m hm
        cases hm
      · exact fun t a f' bumps hbooks hI hfits hmove =>
          Flow.discarded_of_move hmax henabled hcap hbooks.placed hfits hmove hI
    refine ⟨hkept, fun m hm hevt => ?_⟩
    have hplaces : m ∈ s.up.flow.places S.deviceSubscriptions.length := by
      rw [← (Uplink.books hup).places]
      exact hm
    simp only [Flow.places, Flow.loads, Multiset.mem_add, Multiset.mem_coe, Multiset.mem_sum,
      Option.mem_toList] at hplaces
    rcases hplaces with (((hm | hm) | hm) | hm) | ⟨i, -, hm⟩
    · exact Or.inl hm
    · exact absurd hevt (hkept m hm)
    · exact Or.inr (Or.inl hm)
    · exact Or.inr (Or.inr (Or.inl hm))
    · exact Or.inr (Or.inr (Or.inr ⟨i, hm⟩))

/-- One event is received while the link is down, and one more arrives before it is replayed. -/
def blipRun : List (RelayIoAction (Message Unit)) :=
  [.up (.publish "ecv1/gw-01/adapter/main/evt/alarm" (.sample none)),
    .up (.publish "ecv1/gw-01/adapter/main/evt/alarm" (.sample none)),
    .up .watch, .up (.link false), .up (.recv 4), .up (.relayUp 4 0), .up (.link true),
    .up (.recv 4), .up (.relayUp 4 0), .up .watch, .up .watch, .up .watch, .up .watch,
    .up (.watchPublished .ok)]

/-- In the sample run the relay of device `gw-01` has delivered one event and buffers the other. -/
theorem no_event_lost_gw01 : ∃ s : RelayIo (Message Unit),
    (s.up.delivered.map Forwarded.publish, s.up.policy.evtBuffer.map Forwarded.publish) =
      ([0], [1]) ∧ ∀ m ∈ s.up.discarded, m.cls ≠ .evt := by
  obtain ⟨s, hs, hobs⟩ := System.exists_reachable_of_exec (M := RelayIo.system Setup.gw01)
    (P := fun t _ => t.up.flow.backlog Setup.gw01 ≤ Setup.gw01.policy.evtBufferMax)
    (fun t _ => t.up.flow.backlog Setup.gw01 ≤ Setup.gw01.policy.evtBufferMax)
    (fun t _ h => of_decide_eq_true h) (.init ⟨true, rfl⟩) blipRun
    (fun s => (s.up.delivered.map Forwarded.publish,
      s.up.policy.evtBuffer.map Forwarded.publish)) rfl
  exact ⟨s, hobs, ((no_event_lost Setup.gw01 (by decide) rfl rfl).2 s hs).1⟩

end UnsBridge
