import UnsBridge.Io.Uplink

/-!
# What a step of the uplink can do

`Uplink.Move` lists the steps of the uplink tasks, one constructor for each outcome of each task
step, with all that is known where it happens; `Uplink.step_move` shows that the list is complete.
The invariants of the uplink are proved by cases on it and unfold no step function.
-/

namespace UnsBridge

variable {Bytes ρ : Type}

/-- The broadcasts of a rising edge: their commands and topics. -/
def Setup.broadcasts (S : Setup Bytes ρ) : List (String × String) :=
  REHYDRATION_CMDS.zip S.engine.rehydrationTopics

/-- A verdict that takes no token leaves the policy as it is. -/
theorem UplinkPolicy.admitVerdict_eq {ι : Type} {p : UplinkPolicy ι} {cls : UnsClass}
    {connected : Bool} {now : Instant} {verdict : UplinkVerdict}
    (h : (p.admitVerdict cls connected now).1 = verdict) (hforward : verdict ≠ .forward)
    (hcapped : verdict ≠ .dropRateCapped) : p.admitVerdict cls connected now = (verdict, p) := by
  subst h
  unfold admitVerdict at hforward hcapped ⊢
  cases hindex : classIndex cls with
  | none => simp
  | some i =>
    simp only [hindex] at hforward hcapped ⊢
    split_ifs at hforward hcapped ⊢ <;> simp_all

namespace Uplink

/-- The steps in which a pump comes to push its message into the replay buffer. -/
inductive Pushes (s : Uplink Bytes) : UplinkAction Bytes → ℕ → Forwarded Bytes → Prop
  /-- The message is not admitted now. -/
  | admitted (i : ℕ) (now : Instant) (m : Forwarded Bytes) (hpump : s.pumps i = .handed m)
      (hverdict : (s.policy.admitVerdict m.cls s.siteUp now).1 = .buffer) :
      Pushes s (.relayUp i now) i m
  /-- The live publish of an event has failed. -/
  | fail (i : ℕ) (m : Forwarded Bytes) (hpump : s.pumps i = .publishing m) (hevt : m.cls = .evt) :
      Pushes s (.published i .failed) i m

/-- The state with another replay buffer. -/
def setBuffer (s : Uplink Bytes) (evtBuffer : List (Forwarded Bytes)) : Uplink Bytes :=
  { s with policy := { s.policy with evtBuffer } }

variable [Inhabited ρ]

/-- The steps of the uplink tasks. -/
inductive Move (S : Setup Bytes ρ) (s : Uplink Bytes) :
    UplinkAction Bytes → Uplink Bytes → List Bump → Prop
  /-- A publish on the device bus. -/
  | publish (topic : String) (payload : Bytes) :
      Move S s (.publish topic payload)
        { s with bus := s.bus.publish S.deviceSubscriptions topic payload } []
  /-- The link goes down or comes up. -/
  | link (up : Bool) (hchange : up ≠ s.siteUp) :
      Move S s (.link up)
        { s with siteUp := up, trace := s.trace ++ [if up then .linkUp else .linkDown] } []
  /-- A received message is not forwarded. -/
  | refuse (i : ℕ) (cls : UnsClass) (c : Copy Bytes) (bus : Bus Bytes) (reason : DropReason)
      (hpump : s.pumps i = .idle) (hcls : S.pumpClass i = some cls)
      (hrecv : s.bus.recv i = some (c, bus))
      (hdecide : S.engine.decide S.codec .uplink c.topic c.payload = .drop reason) :
      Move S s (.recv i) { s with bus } [.drop reason]
  /-- A received message is handed to `relay_up`. -/
  | hand (i : ℕ) (cls : UnsClass) (c : Copy Bytes) (bus : Bus Bytes) (bytes : Bytes)
      (m : Forwarded Bytes) (hpump : s.pumps i = .idle) (hcls : S.pumpClass i = some cls)
      (hrecv : s.bus.recv i = some (c, bus))
      (hdecide : S.engine.decide S.codec .uplink c.topic c.payload = .forward bytes)
      (hm : m = { cls, publish := c.publish, subscription := i, topic := c.topic, bytes }) :
      Move S s (.recv i) { s.setPump i (.handed m) with bus, handed := s.handed ++ [m] } []
  /-- A message is admitted and published live. -/
  | goLive (i : ℕ) (now : Instant) (m : Forwarded Bytes) (policy : UplinkPolicy (Forwarded Bytes))
      (hpump : s.pumps i = .handed m)
      (hadmits : s.policy.admitVerdict m.cls s.siteUp now = (.forward, policy)) :
      Move S s (.relayUp i now) ({ s with policy }.setPump i (.publishing m)) []
  /-- A message is dropped for the rate cap of its class. -/
  | capped (i : ℕ) (now : Instant) (m : Forwarded Bytes) (policy : UplinkPolicy (Forwarded Bytes))
      (hpump : s.pumps i = .handed m)
      (hadmits : s.policy.admitVerdict m.cls s.siteUp now = (.dropRateCapped, policy)) :
      Move S s (.relayUp i now) (({ s with policy }.setPump i .idle).discard m)
        [.droppedRate m.cls]
  /-- A message of a disabled class is dropped. -/
  | disabled (i : ℕ) (now : Instant) (m : Forwarded Bytes) (hpump : s.pumps i = .handed m)
      (hverdict : (s.policy.admitVerdict m.cls s.siteUp now).1 = .dropDisabled) :
      Move S s (.relayUp i now) ((s.setPump i .idle).discard m) [.droppedDisabled m.cls]
  /-- A message is dropped while the link is down. -/
  | disconnected (i : ℕ) (now : Instant) (m : Forwarded Bytes) (hpump : s.pumps i = .handed m)
      (hverdict : (s.policy.admitVerdict m.cls s.siteUp now).1 = .dropDisconnected) :
      Move S s (.relayUp i now) ((s.setPump i .idle).discard m) [.droppedDisconnected m.cls]
  /-- A message joins the replay buffer. -/
  | store (a : UplinkAction Bytes) (i : ℕ) (m : Forwarded Bytes) (hpush : s.Pushes a i m)
      (hroom : s.policy.evtBuffer.length < s.policy.evtBufferMax) :
      Move S s a ((s.setPump i .idle).setBuffer (s.policy.evtBuffer ++ [m])) [.evtBuffered]
  /-- A message joins the full replay buffer, whose oldest one is dropped. -/
  | evict (a : UplinkAction Bytes) (i : ℕ) (m oldest : Forwarded Bytes)
      (rest : List (Forwarded Bytes)) (hpush : s.Pushes a i m) (hon : 0 < s.policy.evtBufferMax)
      (hfull : s.policy.evtBufferMax ≤ s.policy.evtBuffer.length)
      (hbuffer : s.policy.evtBuffer = oldest :: rest) :
      Move S s a (((s.setPump i .idle).setBuffer (rest ++ [m])).discard oldest)
        [.evtBuffered, .evtBufferDropped]
  /-- There is no replay buffer. -/
  | reject (a : UplinkAction Bytes) (i : ℕ) (m : Forwarded Bytes) (hpush : s.Pushes a i m)
      (hoff : s.policy.evtBufferMax = 0) :
      Move S s a ((s.setPump i .idle).discard m) [.droppedDisconnected m.cls]
  /-- A live publish succeeds. -/
  | deliver (i : ℕ) (m : Forwarded Bytes) (hpump : s.pumps i = .publishing m) :
      Move S s (.published i .ok) { s.setPump i .idle with delivered := s.delivered ++ [m] }
        [.uplinked m.cls]
  /-- The live publish of a message that is no event fails. -/
  | lose (i : ℕ) (m : Forwarded Bytes) (hpump : s.pumps i = .publishing m) (hevt : m.cls ≠ .evt) :
      Move S s (.published i .failed) ((s.setPump i .idle).discard m) [.droppedDisconnected m.cls]
  /-- The baseline sample of the watcher. -/
  | baseline (hphase : s.watcher.phase = .starting) :
      Move S s .watch
        { s with
          watcher := { s.watcher with phase := .waiting, wasConnected := s.siteUp }
          trace := s.trace ++ [.baseline] } []
  /-- A sample that is a rising edge. -/
  | rise (hphase : s.watcher.phase = .waiting) (hup : s.siteUp = true)
      (hwas : s.watcher.wasConnected = false) :
      Move S s .watch
        { s with
          watcher := { phase := .broadcast S.broadcasts, wasConnected := false, connected := true }
          trace := s.trace ++ [.observed true] } []
  /-- A sample that finds the link up as before. -/
  | steady (hphase : s.watcher.phase = .waiting) (hup : s.siteUp = true)
      (hwas : s.watcher.wasConnected = true) :
      Move S s .watch
        { s with
          watcher := { phase := .counting, wasConnected := true, connected := true }
          trace := s.trace ++ [.observed true] } []
  /-- A sample that finds the link down. -/
  | down (hphase : s.watcher.phase = .waiting) (hdown : s.siteUp = false) :
      Move S s .watch
        { s with
          watcher := { phase := .waiting, wasConnected := false, connected := false }
          trace := s.trace ++ [.observed false, .completed] } []
  /-- A broadcast cannot be encoded. -/
  | skip (cmd topic : String) (rest : List (String × String))
      (hphase : s.watcher.phase = .broadcast ((cmd, topic) :: rest))
      (hencode : S.codec.toVec (S.notification cmd) = none) :
      Move S s .watch (s.watchStep (.broadcast rest) []) []
  /-- A broadcast starts. -/
  | broadcast (cmd topic : String) (rest : List (String × String)) (bytes : Bytes)
      (hphase : s.watcher.phase = .broadcast ((cmd, topic) :: rest))
      (hencode : S.codec.toVec (S.notification cmd) = some bytes) :
      Move S s .watch (s.watchStep (.broadcasting rest) [.broadcast topic]) []
  /-- A broadcast has been made, or not. -/
  | broadcasted (outcome : Outcome) (rest : List (String × String))
      (hphase : s.watcher.phase = .broadcasting rest) :
      Move S s (.watchPublished outcome) (s.watchStep (.broadcast rest) []) []
  /-- After the broadcasts the replay begins. -/
  | enter (hphase : s.watcher.phase = .broadcast []) :
      Move S s .watch (s.watchStep .testing []) []
  /-- There are events to be replayed. -/
  | count (hphase : s.watcher.phase = .counting) (hbuffer : s.policy.evtBuffer ≠ []) :
      Move S s .watch (s.watchStep .testing []) []
  /-- The link is up for the next replay. -/
  | test (hphase : s.watcher.phase = .testing) (hup : s.siteUp = true) :
      Move S s .watch (s.watchStep .popping []) []
  /-- The round is over: nothing is buffered, or the link is down. -/
  | complete (hphase : (s.watcher.phase = .counting ∨ s.watcher.phase = .popping) ∧
        s.policy.evtBuffer = [] ∨ s.watcher.phase = .testing ∧ s.siteUp = false) :
      Move S s .watch s.completeIteration []
  /-- The oldest event is popped for its replay. -/
  | pop (m : Forwarded Bytes) (rest : List (Forwarded Bytes)) (hphase : s.watcher.phase = .popping)
      (hbuffer : s.policy.evtBuffer = m :: rest) :
      Move S s .watch ((s.setBuffer rest).watchStep (.replaying m) [.replay]) []
  /-- A replay succeeds. -/
  | replayed (m : Forwarded Bytes) (hphase : s.watcher.phase = .replaying m) :
      Move S s (.watchPublished .ok)
        ({ s with delivered := s.delivered ++ [m] }.watchStep .testing []) [.evtReplayed]
  /-- A replay fails, and its event goes back to the front of the buffer. -/
  | requeue (m : Forwarded Bytes) (hphase : s.watcher.phase = .replaying m)
      (hroom : s.policy.evtBuffer.length < s.policy.evtBufferMax) :
      Move S s (.watchPublished .failed)
        (s.setBuffer (m :: s.policy.evtBuffer)).completeIteration []
  /-- A replay fails, and the buffer is full. -/
  | refuseRequeue (m : Forwarded Bytes) (hphase : s.watcher.phase = .replaying m)
      (hfull : s.policy.evtBufferMax ≤ s.policy.evtBuffer.length) :
      Move S s (.watchPublished .failed) (s.discard m).completeIteration [.evtBufferDropped]

variable {S : Setup Bytes ρ} {s s' : Uplink Bytes} {bumps : List Bump}

/-- The push into the replay buffer. -/
theorem push_move {a : UplinkAction Bytes} {i : ℕ} {m : Forwarded Bytes} (hpush : s.Pushes a i m)
    (h : (s.setPump i .idle).push m = (s', bumps)) : Move S s a s' bumps := by
  have hpolicy : (s.setPump i .idle).policy = s.policy := rfl
  unfold push UplinkPolicy.pushEvt at h
  rw [hpolicy] at h
  split_ifs at h with hoff hfull
  · cases h
    exact .reject a i m hpush hoff
  · cases hbuffer : s.policy.evtBuffer with
    | nil =>
      rw [hbuffer] at hfull
      exact absurd (Nat.le_zero.mp hfull) hoff
    | cons oldest rest =>
      have hmove := Move.evict (S := S) a i m oldest rest hpush (Nat.pos_of_ne_zero hoff) hfull
        hbuffer
      simp only [hbuffer] at h
      cases h
      exact hmove
  · cases h
    exact .store a i m hpush (Nat.not_le.mp hfull)

/-- The locked section of `relay_up`. -/
theorem relayUp_move {i : ℕ} {now : Instant} (h : s.relayUp i now = some (s', bumps)) :
    Move S s (.relayUp i now) s' bumps := by
  unfold relayUp at h
  cases hpump : s.pumps i with
  | handed m =>
    simp only [hpump] at h
    cases hadmits : s.policy.admitVerdict m.cls s.siteUp now with
    | mk verdict policy =>
      have hverdict : (s.policy.admitVerdict m.cls s.siteUp now).1 = verdict := by rw [hadmits]
      -- without a token the policy stays
      have hsame : verdict ≠ .forward → verdict ≠ .dropRateCapped → policy = s.policy :=
        fun hforward hcapped => (Prod.mk.inj (hadmits.symm.trans
          (UplinkPolicy.admitVerdict_eq hverdict hforward hcapped))).2
      simp only [hadmits] at h
      cases verdict with
      | forward =>
        cases h
        exact .goLive i now m policy hpump hadmits
      | buffer =>
        obtain rfl := hsame (by simp) (by simp)
        exact push_move (.admitted i now m hpump hverdict) (Option.some.inj h)
      | dropDisabled =>
        obtain rfl := hsame (by simp) (by simp)
        cases h
        exact .disabled i now m hpump hverdict
      | dropDisconnected =>
        obtain rfl := hsame (by simp) (by simp)
        cases h
        exact .disconnected i now m hpump hverdict
      | dropRateCapped =>
        cases h
        exact .capped i now m policy hpump hadmits
  | _ => simp [hpump] at h

/-- A step of the connectivity watcher up to its next await. -/
theorem watch_move (h : s.watch S = some (s', bumps)) : Move S s .watch s' bumps := by
  unfold watch at h
  cases hphase : s.watcher.phase with
  | starting =>
    simp only [hphase] at h
    cases h
    exact .baseline hphase
  | waiting =>
    simp only [hphase] at h
    cases hup : s.siteUp with
    | false =>
      have hmove := Move.down (S := S) hphase hup
      simp only [hup, Bool.false_and, Bool.false_eq_true, if_false] at h
      cases h
      simpa [completeIteration, hup] using hmove
    | true =>
      cases hwas : s.watcher.wasConnected with
      | false =>
        have hmove := Move.rise (S := S) hphase hup hwas
        simp only [hup, hwas, Bool.not_false, Bool.and_self, if_true] at h
        cases h
        simpa [watchStep, hwas, hup, Setup.broadcasts] using hmove
      | true =>
        have hmove := Move.steady (S := S) hphase hup hwas
        simp only [hup, hwas, Bool.not_true, Bool.and_false, Bool.false_eq_true, if_false,
          if_true] at h
        cases h
        simpa [watchStep, hwas, hup] using hmove
  | broadcast rest =>
    cases rest with
    | nil =>
      simp only [hphase] at h
      cases h
      exact .enter hphase
    | cons p rest =>
      obtain ⟨cmd, topic⟩ := p
      cases hencode : S.codec.toVec (S.notification cmd) with
      | none =>
        simp only [hphase, hencode] at h
        cases h
        exact .skip cmd topic rest hphase hencode
      | some bytes =>
        simp only [hphase, hencode] at h
        cases h
        exact .broadcast cmd topic rest bytes hphase hencode
  | counting =>
    simp only [hphase] at h
    split at h
    · rename_i hcount
      cases h
      exact .count hphase (List.length_pos_iff.mp hcount)
    · rename_i hcount
      cases h
      exact .complete (Or.inl ⟨Or.inl hphase, by simpa [UplinkPolicy.bufferedEvt] using hcount⟩)
  | testing =>
    simp only [hphase] at h
    split_ifs at h with hup
    · cases h
      exact .test hphase hup
    · cases h
      exact .complete (Or.inr ⟨hphase, by simpa using hup⟩)
  | popping =>
    simp only [hphase, UplinkPolicy.popEvt] at h
    cases hbuffer : s.policy.evtBuffer with
    | nil =>
      have hmove := Move.complete (S := S) (Or.inl ⟨Or.inr hphase, hbuffer⟩)
      simp only [hbuffer, List.head?_nil, List.tail_nil] at h
      rw [← hbuffer] at h
      cases h
      exact hmove
    | cons m rest =>
      have hmove := Move.pop (S := S) m rest hphase hbuffer
      simp only [hbuffer, List.head?_cons, List.tail_cons] at h
      cases h
      exact hmove
  | _ => simp [hphase] at h

/-- Every step of the uplink is in the list. -/
theorem step_move {a : UplinkAction Bytes} (h : s.step S a = some (s', bumps)) :
    Move S s a s' bumps := by
  cases a with
  | publish topic payload =>
    cases h
    exact .publish topic payload
  | link up =>
    simp only [step] at h
    split at h
    · cases h
    · rename_i hchange
      cases h
      exact .link up hchange
  | recv i =>
    simp only [step, recv] at h
    split at h
    · rename_i cls c bus hpump hcls hrecv
      split at h
      · rename_i bytes hdecide
        cases h
        exact .hand i cls c bus bytes _ hpump hcls hrecv hdecide rfl
      · rename_i reason hdecide
        cases h
        exact .refuse i cls c bus reason hpump hcls hrecv hdecide
    · cases h
  | relayUp i now => exact relayUp_move h
  | published i outcome =>
    simp only [step, relayUpPublished] at h
    cases hpump : s.pumps i with
    | publishing m =>
      simp only [hpump] at h
      cases outcome with
      | ok =>
        cases h
        exact .deliver i m hpump
      | failed =>
        simp only at h
        split_ifs at h with hevt
        · exact push_move (.fail i m hpump hevt) (Option.some.inj h)
        · cases h
          exact .lose i m hpump hevt
    | _ => simp [hpump] at h
  | watch => exact watch_move h
  | watchPublished outcome =>
    simp only [step, watchPublished] at h
    cases hphase : s.watcher.phase with
    | broadcasting rest =>
      simp only [hphase] at h
      cases h
      exact .broadcasted outcome rest hphase
    | replaying m =>
      simp only [hphase] at h
      cases outcome with
      | ok =>
        cases h
        exact .replayed m hphase
      | failed =>
        simp only [UplinkPolicy.requeueEvtFront] at h
        split_ifs at h with hfull
        · cases h
          exact .refuseRequeue m hphase hfull
        · cases h
          exact .requeue m hphase (Nat.not_le.mp hfull)
    | _ => simp [hphase] at h

/-- A push is the one that `relay_up` makes. -/
theorem Pushes.step {a : UplinkAction Bytes} {i : ℕ} {m : Forwarded Bytes} (h : s.Pushes a i m) :
    s.step S a = some ((s.setPump i .idle).push m) := by
  cases h with
  | admitted i now m hpump hverdict =>
    have hadmits := UplinkPolicy.admitVerdict_eq hverdict (by simp) (by simp)
    simp only [Uplink.step, relayUp, hpump, hadmits]
  | fail i m hpump hevt => simp only [Uplink.step, relayUpPublished, hpump, hevt, if_true]

/-- Every step in the list is one of the uplink. -/
theorem Move.step {a : UplinkAction Bytes} (h : Move S s a s' bumps) :
    s.step S a = some (s', bumps) := by
  cases h with
  | publish => rfl
  | link up hchange => simp [Uplink.step, hchange]
  | refuse i cls c bus reason hpump hcls hrecv hdecide =>
    simp [Uplink.step, recv, hpump, hcls, hrecv, hdecide]
  | hand i cls c bus bytes m hpump hcls hrecv hdecide hm =>
    simp [Uplink.step, recv, hpump, hcls, hrecv, hdecide, hm]
  | goLive i now m policy hpump hadmits => simp [Uplink.step, relayUp, hpump, hadmits]
  | capped i now m policy hpump hadmits => simp [Uplink.step, relayUp, hpump, hadmits]
  | disabled i now m hpump hverdict | disconnected i now m hpump hverdict =>
    have hadmits := UplinkPolicy.admitVerdict_eq hverdict (by simp) (by simp)
    simp only [Uplink.step, relayUp, hpump, hadmits]
  | store a i m hpush hroom =>
    rw [hpush.step]
    simp [push, setPump, setBuffer, s.policy.pushEvt_of_room m hroom]
  | evict a i m oldest rest hpush hon hfull hbuffer =>
    rw [hpush.step]
    simp [push, setPump, setBuffer, discard, s.policy.pushEvt_of_full m hon hfull, hbuffer]
  | reject a i m hpush hoff =>
    rw [hpush.step]
    simp [push, setPump, discard, UplinkPolicy.pushEvt, hoff]
  | deliver i m hpump => simp [Uplink.step, relayUpPublished, hpump, setPump]
  | lose i m hpump hevt => simp [Uplink.step, relayUpPublished, hpump, hevt]
  | baseline hphase => simp [Uplink.step, watch, hphase]
  | rise hphase hup hwas =>
    simp [Uplink.step, watch, hphase, hup, hwas, watchStep, Setup.broadcasts]
  | steady hphase hup hwas => simp [Uplink.step, watch, hphase, hup, hwas, watchStep]
  | down hphase hdown => simp [Uplink.step, watch, hphase, hdown, completeIteration]
  | skip cmd topic rest hphase hencode => simp [Uplink.step, watch, hphase, hencode]
  | broadcast cmd topic rest bytes hphase hencode => simp [Uplink.step, watch, hphase, hencode]
  | broadcasted outcome rest hphase => simp [Uplink.step, watchPublished, hphase]
  | enter hphase => simp [Uplink.step, watch, hphase]
  | count hphase hbuffer =>
    simp [Uplink.step, watch, hphase, UplinkPolicy.bufferedEvt, List.length_pos_iff.mpr hbuffer]
  | test hphase hup => simp [Uplink.step, watch, hphase, hup]
  | complete hphase =>
    rcases hphase with ⟨hphase | hphase, hbuffer⟩ | ⟨hphase, hdown⟩
    · simp [Uplink.step, watch, hphase, UplinkPolicy.bufferedEvt, hbuffer]
    · have hsame : { s.policy with evtBuffer := [] } = s.policy := by rw [← hbuffer]
      simp [Uplink.step, watch, hphase, UplinkPolicy.popEvt, hbuffer, hsame]
    · simp [Uplink.step, watch, hphase, hdown]
  | pop m rest hphase hbuffer =>
    simp [Uplink.step, watch, hphase, UplinkPolicy.popEvt, hbuffer, setBuffer]
  | replayed m hphase => simp [Uplink.step, watchPublished, hphase]
  | requeue m hphase hroom =>
    simp [Uplink.step, watchPublished, hphase, UplinkPolicy.requeueEvtFront, Nat.not_le.mpr hroom,
      setBuffer]
  | refuseRequeue m hphase hfull =>
    simp [Uplink.step, watchPublished, hphase, UplinkPolicy.requeueEvtFront, hfull, discard]

end Uplink

end UnsBridge
