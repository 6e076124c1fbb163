import UnsBridge.Io.UplinkWatch
import UnsBridge.Lib.Runs
import UnsBridge.WatcherDiscipline

/-!
# The replay gets through

While the link is up and the publishes of the replay succeed, every step of the connectivity watcher
brings a buffered event nearer to its replay, whatever the pumps do meanwhile: they push behind it,
and a push into the full buffer takes away what stands before it, or the event itself.
`Uplink.OutWithin` says within how many steps of the watcher the event is out of the buffer, and
`buffered_events_replayed` concludes that a bounded number of them replays all that was buffered.
-/

namespace UnsBridge

open Transition

variable {Bytes ρ : Type}

/-- Whether an action is a step of the watcher. -/
def UplinkAction.isWatch : UplinkAction Bytes → Bool
  | .watch | .watchPublished _ => true
  | _ => false

/-- The steps of the watcher until the event at the front of the buffer has been replayed, if the
link is up and the publishes of the replay succeed. -/
def WatcherPhase.distance (S : Setup Bytes ρ) : WatcherPhase Bytes → ℕ
  | .popping => 2
  | .testing => 3
  | .replaying _ | .counting => 4
  | .broadcast rest => 2 * rest.length + 4
  | .broadcasting rest => 2 * rest.length + 5
  | .waiting => 2 * S.broadcasts.length + 5
  | .starting => 2 * S.broadcasts.length + 6

namespace Uplink

/-- Whether a step neither takes the link down nor makes a replay fail. -/
def calm (s : Uplink Bytes) : UplinkAction Bytes → Bool
  | .link _ => false
  | .watchPublished .failed =>
    match s.watcher.phase with
    | .replaying _ => false
    | _ => true
  | _ => true

/-- Whether a step pushes an event into the replay buffer. -/
def pushes (s : Uplink Bytes) (a : UplinkAction Bytes) : Bool :=
  (s.calls a).any fun call => match call with
    | .pushEvt _ => true
    | _ => false

/-- Whether a step is calm, and does not push into the full replay buffer. -/
def roomy (s : Uplink Bytes) (a : UplinkAction Bytes) : Bool :=
  s.calm a && (!s.pushes a || s.policy.evtBuffer.length < s.policy.evtBufferMax)

/-- An event has been replayed, or is replayed within `n` steps of the watcher; if the full buffer
drops events, then it may have been dropped. -/
def OutWithin (S : Setup Bytes ρ) (drops : Prop) (m : Forwarded Bytes) (s : Uplink Bytes) (n : ℕ) :
    Prop :=
  m ∈ s.delivered ∨ (drops ∧ m ∈ s.discarded) ∨ (s.watcher.phase = .replaying m ∧ 1 ≤ n) ∨
    ∃ before after, s.policy.evtBuffer = before ++ m :: after ∧
      s.watcher.phase.distance S + 3 * before.length ≤ n

variable {S : Setup Bytes ρ} {s s' : Uplink Bytes} {a : UplinkAction Bytes} {m : Forwarded Bytes}
  {n : ℕ} {bumps : List Bump} {drops : Prop}

/-- The test for a push finds every push. -/
theorem Pushes.pushes {i : ℕ} (h : s.Pushes a i m) : s.pushes a = true := by
  cases h with
  | admitted i now m hpump hverdict => simp [Uplink.pushes, calls, hpump, hverdict]
  | fail i m hpump hevt => simp [Uplink.pushes, calls, hpump, hevt]

/-- What neither loses a message nor touches the buffer and the watcher puts nothing off. -/
theorem OutWithin.of_same (h : OutWithin S drops m s n) (hdelivered : s.delivered ⊆ s'.delivered)
    (hdiscarded : s.discarded ⊆ s'.discarded) (hwatcher : s'.watcher = s.watcher)
    (hbuffer : s'.policy.evtBuffer = s.policy.evtBuffer) : OutWithin S drops m s' n := by
  unfold OutWithin at h ⊢
  rw [hwatcher, hbuffer]
  exact h.imp (fun hm => hdelivered hm) (Or.imp_left fun hm => ⟨hm.1, hdiscarded hm.2⟩)

/-- A push into a buffer with room goes behind the event. -/
theorem OutWithin.store (h : OutWithin S drops m s n) (i : ℕ) (item : Forwarded Bytes) :
    OutWithin S drops m ((s.setPump i .idle).setBuffer (s.policy.evtBuffer ++ [item])) n := by
  rcases h with hm | hm | hm | ⟨before, after, hbuffer, hle⟩
  · exact Or.inl hm
  · exact Or.inr (Or.inl hm)
  · exact Or.inr (Or.inr (Or.inl hm))
  · refine Or.inr (Or.inr (Or.inr ⟨before, after ++ [item], ?_, hle⟩))
    simp [setBuffer, hbuffer]

/-- A push into the full buffer moves the event to the front, or drops it. -/
theorem OutWithin.evict (h : OutWithin S drops m s n) (hdrops : drops) (i : ℕ)
    {oldest : Forwarded Bytes} {rest : List (Forwarded Bytes)}
    (hbuffer : s.policy.evtBuffer = oldest :: rest) (item : Forwarded Bytes) :
    OutWithin S drops m (((s.setPump i .idle).setBuffer (rest ++ [item])).discard oldest) n := by
  rcases h with hm | hm | hm | ⟨before, after, hm, hle⟩
  · exact Or.inl hm
  · exact Or.inr (Or.inl ⟨hdrops, List.mem_append_left _ hm.2⟩)
  · exact Or.inr (Or.inr (Or.inl hm))
  · cases before with
    | nil =>
      obtain ⟨rfl, -⟩ := List.cons.inj (hbuffer.symm.trans hm)
      exact Or.inr (Or.inl ⟨hdrops, List.mem_append_right _ (List.mem_singleton_self _)⟩)
    | cons first before =>
      obtain ⟨-, hrest⟩ := List.cons.inj (hbuffer.symm.trans hm)
      refine Or.inr (Or.inr (Or.inr ⟨before, after ++ [item], ?_, ?_⟩))
      · simp [setBuffer, discard, hrest]
      · rw [List.length_cons] at hle
        change s.watcher.phase.distance S + 3 * before.length ≤ n
        omega

/-- A step of the watcher that goes nearer to the next replay. -/
theorem OutWithin.nearer (h : OutWithin S drops m s n)
    (hphase : ∀ item, s.watcher.phase ≠ .replaying item)
    (hdelivered : s'.delivered = s.delivered) (hdiscarded : s'.discarded = s.discarded)
    (hbuffer : s'.policy.evtBuffer = s.policy.evtBuffer)
    (hless : s.policy.evtBuffer ≠ [] →
      s'.watcher.phase.distance S < s.watcher.phase.distance S) :
    OutWithin S drops m s' (n - 1) := by
  rcases h with hm | hm | hm | ⟨before, after, hm, hle⟩
  · exact Or.inl (hdelivered ▸ hm)
  · exact Or.inr (Or.inl ⟨hm.1, hdiscarded ▸ hm.2⟩)
  · exact absurd hm.1 (hphase m)
  · have hne : s.policy.evtBuffer ≠ [] := by simp [hm]
    have hlt := hless hne
    exact Or.inr (Or.inr (Or.inr ⟨before, after, hbuffer.trans hm, by omega⟩))

/-- The watcher pops: what waits behind the popped event comes nearer, and that event is held. -/
theorem OutWithin.pop (h : OutWithin S drops m s n) (hphase : s.watcher.phase = .popping)
    {item : Forwarded Bytes} {rest : List (Forwarded Bytes)}
    (hbuffer : s.policy.evtBuffer = item :: rest) :
    OutWithin S drops m ((s.setBuffer rest).watchStep (.replaying item) [.replay]) (n - 1) := by
  rcases h with hm | hm | hm | ⟨before, after, hm, hle⟩
  · exact Or.inl hm
  · exact Or.inr (Or.inl hm)
  · exact absurd (hphase.symm.trans hm.1) (by simp)
  · rw [hphase] at hle
    cases before with
    | nil =>
      -- the event itself is the one that is popped
      obtain ⟨rfl, -⟩ := List.cons.inj (hbuffer.symm.trans hm)
      refine Or.inr (Or.inr (Or.inl ⟨rfl, ?_⟩))
      simp only [WatcherPhase.distance] at hle
      omega
    | cons first before =>
      obtain ⟨-, hrest⟩ := List.cons.inj (hbuffer.symm.trans hm)
      refine Or.inr (Or.inr (Or.inr ⟨before, after, hrest, ?_⟩))
      simp only [WatcherPhase.distance, List.length_cons] at hle
      simp only [watchStep, WatcherPhase.distance]
      omega

/-- The replay of an event succeeds. -/
theorem OutWithin.replayed (h : OutWithin S drops m s n) {item : Forwarded Bytes}
    (hphase : s.watcher.phase = .replaying item) :
    OutWithin S drops m ({ s with delivered := s.delivered ++ [item] }.watchStep .testing [])
      (n - 1) := by
  rcases h with hm | hm | hm | ⟨before, after, hm, hle⟩
  · exact Or.inl (List.mem_append_left _ hm)
  · exact Or.inr (Or.inl hm)
  · obtain rfl : item = m := by injection hphase.symm.trans hm.1
    exact Or.inl (List.mem_append_right _ (List.mem_singleton_self _))
  · refine Or.inr (Or.inr (Or.inr ⟨before, after, hm, ?_⟩))
    simp only [hphase, WatcherPhase.distance] at hle
    simp only [watchStep, WatcherPhase.distance]
    omega

variable [Inhabited ρ]

/-- Only the environment changes the link. -/
theorem siteUp_of_step (hlink : ∀ up, a ≠ .link up) (hstep : s.step S a = some (s', bumps)) :
    s'.siteUp = s.siteUp := by
  cases step_move hstep with
  | link up => exact absurd rfl (hlink up)
  | _ => rfl

/-- A calm step while the link is up puts nothing off, and one of the watcher brings everything
nearer. -/
theorem OutWithin.step (h : OutWithin S drops m s n) (hup : s.siteUp = true)
    (hcalm : s.calm a = true)
    (hroom : drops ∨ ∀ i item, s.Pushes a i item →
      s.policy.evtBuffer.length < s.policy.evtBufferMax)
    (hstep : s.step S a = some (s', bumps)) :
    OutWithin S drops m s' (n - a.isWatch.toNat) := by
  cases step_move hstep with
  | link => cases hcalm
  | publish | refuse | hand => exact h
  | goLive i now item policy hpump hadmits =>
    exact h.of_same (fun _ => id) (fun _ => id) rfl (UplinkPolicy.evtBuffer_of_admitVerdict hadmits)
  | capped i now item policy hpump hadmits =>
    exact h.of_same (fun _ => id) (List.subset_append_left _ _) rfl
      (UplinkPolicy.evtBuffer_of_admitVerdict hadmits)
  | disabled | disconnected | lose =>
    exact h.of_same (fun _ => id) (List.subset_append_left _ _) rfl rfl
  | reject a i item hpush =>
    have hwatch : a.isWatch = false := by cases hpush <;> rfl
    rw [hwatch]
    exact h.of_same (fun _ => id) (List.subset_append_left _ _) rfl rfl
  | store a i item hpush =>
    have hwatch : a.isWatch = false := by cases hpush <;> rfl
    rw [hwatch]
    exact h.store i item
  | evict a i item oldest rest hpush hon hfull hbuffer =>
    have hwatch : a.isWatch = false := by cases hpush <;> rfl
    have hdrops : drops := hroom.resolve_right fun hroom => by
      have hlt := hroom i item hpush
      omega
    rw [hwatch]
    exact h.evict hdrops i hbuffer item
  | deliver => exact h.of_same (List.subset_append_left _ _) (fun _ => id) rfl rfl
  | baseline hphase =>
    exact h.nearer (by simp [hphase]) rfl rfl rfl (by simp [hphase, WatcherPhase.distance])
  | rise hphase =>
    exact h.nearer (by simp [hphase]) rfl rfl rfl (by simp [hphase, WatcherPhase.distance])
  | steady hphase =>
    refine h.nearer (by simp [hphase]) rfl rfl rfl fun _ => ?_
    simp only [hphase, WatcherPhase.distance]
    omega
  | down hphase hdown => simp [hup] at hdown
  | skip cmd topic rest hphase | broadcast cmd topic rest bytes hphase =>
    refine h.nearer (by simp [hphase]) rfl rfl rfl fun _ => ?_
    simp only [hphase, watchStep, WatcherPhase.distance, List.length_cons]
    omega
  | broadcasted outcome rest hphase | enter hphase | count hphase | test hphase =>
    exact h.nearer (by simp [hphase]) rfl rfl rfl
      (by simp [hphase, watchStep, WatcherPhase.distance])
  | complete hphase =>
    rcases hphase with ⟨hphase, hbuffer⟩ | ⟨-, hdown⟩
    · refine h.nearer ?_ rfl rfl rfl (absurd hbuffer)
      rcases hphase with hphase | hphase <;> simp [hphase]
    · simp [hup] at hdown
  | pop item rest hphase hbuffer => exact h.pop hphase hbuffer
  | replayed item hphase => exact h.replayed hphase
  | requeue item hphase | refuseRequeue item hphase => simp [calm, hphase] at hcalm

/-- The watcher never has more broadcasts to make than there are. -/
theorem todo_le {P : Uplink Bytes → UplinkAction Bytes → Prop}
    (h : (system S).Reachable P s) :
    s.watcher.phase.todo.length ≤ S.broadcasts.length := by
  apply h.invariant
  · rintro s ⟨siteUp, rfl⟩
    exact Nat.zero_le _
  · intro s a s' _ htodo _ hstep
    obtain ⟨⟨s'', bumps⟩, hs, rfl⟩ := Option.map_eq_some_iff.mp hstep
    obtain ⟨es, -, hmove⟩ := step_watchMove hs
    generalize s''.watcher = w at hmove
    cases hmove with
    | keep => exact htodo
    | link => exact htodo
    | rise => exact Nat.le_refl _
    | skip cmd topic rest hphase =>
      rw [hphase] at htodo
      exact (Nat.le_succ _).trans htodo
    | broadcast cmd topic rest hphase =>
      rw [hphase] at htodo
      exact (Nat.le_succ _).trans htodo
    | broadcasted outcome rest hphase =>
      rw [hphase] at htodo
      exact htodo
    | advance a phase hphase hphase' =>
      cases phase <;> simp_all [WatcherPhase.todo, WatcherPhase.Replays]
    | _ => exact Nat.zero_le _

/-- The watcher is never far from a replay. -/
theorem distance_le {P : Uplink Bytes → UplinkAction Bytes → Prop}
    (h : (system S).Reachable P s) :
    s.watcher.phase.distance S ≤ 2 * S.engine.rehydrationTopics.length + 6 := by
  have htodo := todo_le h
  rw [← S.map_snd_broadcasts, List.length_map]
  cases hphase : s.watcher.phase with
  | broadcast rest =>
    rw [hphase] at htodo
    simp only [WatcherPhase.todo] at htodo
    simp only [WatcherPhase.distance]
    omega
  | broadcasting rest =>
    rw [hphase] at htodo
    simp only [WatcherPhase.todo] at htodo
    simp only [WatcherPhase.distance]
    omega
  | _ =>
    simp only [WatcherPhase.distance]
    omega

end Uplink

/-- What is buffered is out of the buffer after so many steps of the watcher. -/
theorem Uplink.replayed_of_outWithin [Inhabited ρ] {S : Setup Bytes ρ} {s t : Uplink Bytes}
    {as : List (UplinkAction Bytes)} (h : (Uplink.system S).Reachable System.anyStep s)
    (hup : s.siteUp = true) (drops : Prop) (test : Uplink Bytes → UplinkAction Bytes → Bool)
    (hcalm : ∀ r a, test r a = true → r.calm a = true)
    (hroom : ∀ r a, test r a = true → drops ∨ ∀ i item, r.Pushes a i item →
      r.policy.evtBuffer.length < r.policy.evtBufferMax)
    (hrun : (Uplink.system S).exec test s as = some t)
    (hcount : 3 * s.policy.evtBuffer.length + 2 * S.engine.rehydrationTopics.length + 6 ≤
      as.countP UplinkAction.isWatch) {m : Forwarded Bytes}
    (hm : m ∈ s.policy.evtBuffer ∨ s.watcher.held = some m) :
    m ∈ t.delivered ∨ (drops ∧ m ∈ t.discarded) := by
  have hdistance := Uplink.distance_le h
  have hstart : OutWithin S drops m s (as.countP UplinkAction.isWatch) := by
    rcases hm with hm | hm
    · obtain ⟨before, after, hbuffer⟩ := List.append_of_mem hm
      have hlength := congrArg List.length hbuffer
      rw [List.length_append, List.length_cons] at hlength
      exact Or.inr (Or.inr (Or.inr ⟨before, after, hbuffer, by omega⟩))
    · unfold Watcher.held at hm
      split at hm
      · obtain rfl := Option.some.inj hm
        exact Or.inr (Or.inr (Or.inl ⟨by assumption, by omega⟩))
      · cases hm
  have hend := System.exec_remaining (M := Uplink.system S)
    (fun s as => s.siteUp = true ∧ OutWithin S drops m s (as.countP UplinkAction.isWatch)) test ?_
    ⟨hup, hstart⟩ hrun
  · rcases hend.2 with hm | hm | hm | ⟨before, after, -, hle⟩
    · exact Or.inl hm
    · exact Or.inr hm
    · exact absurd hm.2 (Nat.not_succ_le_zero 0)
    · cases hphase : t.watcher.phase <;> simp [hphase, WatcherPhase.distance] at hle
  · rintro r a as r' htest hstep ⟨hup, hwithin⟩
    obtain ⟨⟨r'', bumps⟩, hs, rfl⟩ := Option.map_eq_some_iff.mp hstep
    have hlink : ∀ up, a ≠ .link up := by
      rintro up rfl
      cases hcalm r _ htest
    have hnext := hwithin.step hup (hcalm r a htest) (hroom r a htest) hs
    have hcount : (a :: as).countP UplinkAction.isWatch - a.isWatch.toNat =
        as.countP UplinkAction.isWatch := by
      rw [List.countP_cons]
      cases a.isWatch <;> simp
    exact ⟨(siteUp_of_step hlink hs).trans hup, hcount ▸ hnext⟩

/-- What is buffered is replayed.  Take any state that the uplink tasks reach and in which the link
is up, and any run from there in which it stays up and no publish of the replay fails, whatever the
pumps do and whatever is published.  When the watcher has taken three steps for each buffered event,
two for each rehydration broadcast and six more, then everything that was in the replay buffer or on
its way out of it has been delivered or dropped, and all of it has been delivered if no event has
been pushed into the full buffer in the meantime. -/
theorem buffered_events_replayed [Inhabited ρ] (S : Setup Bytes ρ) {s t : Uplink Bytes}
    {as : List (UplinkAction Bytes)} (h : (Uplink.system S).Reachable System.anyStep s)
    (hup : s.siteUp = true)
    (hcount : 3 * s.policy.evtBuffer.length + 2 * S.engine.rehydrationTopics.length + 6 ≤
      as.countP UplinkAction.isWatch) :
    ((Uplink.system S).exec Uplink.calm s as = some t →
      ∀ m, m ∈ s.policy.evtBuffer ∨ s.watcher.held = some m →
        m ∈ t.delivered ∨ m ∈ t.discarded) ∧
    ((Uplink.system S).exec Uplink.roomy s as = some t →
      ∀ m, m ∈ s.policy.evtBuffer ∨ s.watcher.held = some m → m ∈ t.delivered) := by
  refine ⟨fun hrun m hm => ?_, fun hrun m hm => ?_⟩
  · exact (Uplink.replayed_of_outWithin h hup True Uplink.calm (fun _ _ hcalm => hcalm)
      (fun _ _ _ => Or.inl trivial) hrun hcount hm).imp_right And.right
  · have hcalm : ∀ (r : Uplink Bytes) a, r.roomy a = true → r.calm a = true := fun r a hroomy =>
      (Bool.and_eq_true_iff.mp hroomy).1
    have hroom : ∀ (r : Uplink Bytes) a, r.roomy a = true → False ∨ ∀ i item, r.Pushes a i item →
        r.policy.evtBuffer.length < r.policy.evtBufferMax := by
      refine fun r a hroomy => Or.inr fun i item hpush => ?_
      simpa [Uplink.roomy, hpush.pushes] using (Bool.and_eq_true_iff.mp hroomy).2
    exact (Uplink.replayed_of_outWithin h hup False Uplink.roomy hcalm hroom hrun hcount
      hm).resolve_right fun hm => hm.1

/-- Two events fill the replay buffer while the link is down, and a third one is published. -/
def bufferingRun : List (UplinkAction (Message Unit)) :=
  List.replicate 3 (.publish "ecv1/gw-01/adapter/main/evt/alarm" (.sample none)) ++
    [.link false, .recv 4, .relayUp 4 0, .recv 4, .relayUp 4 0, .link true]

/-- The watcher replays the events, and goes on.  The third one comes in while the first one is
under replay. -/
def replayingRun : List (UplinkAction (Message Unit)) :=
  [.watch, .watch, .watch, .watch, .watch, .recv 4, .relayUp 4 0, .watchPublished .ok, .watch,
    .watch, .watchPublished .ok, .watch, .watch, .watchPublished .ok] ++ List.replicate 4 .watch

/-- The two events of the full buffer are replayed. -/
theorem buffered_events_replayed_full : ∃ s t : Uplink (Message Unit),
    s.policy.evtBuffer.length = s.policy.evtBufferMax ∧ s.delivered.length = 0 ∧
    (Uplink.system Setup.twoEvents).exec Uplink.roomy s replayingRun = some t ∧
    ∀ m ∈ s.policy.evtBuffer, m ∈ t.delivered := by
  obtain ⟨s, hs, hobs⟩ := System.exists_reachable_of_exec (M := Uplink.system Setup.twoEvents)
    (P := System.anyStep) (fun _ _ => true) (fun _ _ _ => trivial) (.init ⟨true, rfl⟩) bufferingRun
    (fun s => (s.siteUp, s.policy.evtBuffer.length, s.policy.evtBufferMax, s.delivered.length,
      ((Uplink.system Setup.twoEvents).exec Uplink.roomy s replayingRun).isSome))
    (x := (true, 2, 2, 0, true)) (by decide +kernel)
  simp only [Prod.mk.injEq] at hobs
  obtain ⟨hup, hbuffer, hmax, hdelivered, hrun⟩ := hobs
  obtain ⟨t, ht⟩ := Option.isSome_iff_exists.mp hrun
  refine ⟨s, t, hbuffer.trans hmax.symm, hdelivered, ht, fun m hm => ?_⟩
  refine (buffered_events_replayed Setup.twoEvents hs hup ?_).2 ht m (Or.inl hm)
  rw [hbuffer]
  decide +kernel

end UnsBridge
