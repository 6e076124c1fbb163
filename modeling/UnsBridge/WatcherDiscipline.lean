import UnsBridge.Io.RelayIo
import UnsBridge.ReplayBuffer

/-!
# The replay buffer of the relay

`replay_buffer_newest` is about any calls on the policy in which a requeue returns the item of the
last pop.  In the relay the pumps admit and push at any moment, while only the connectivity watcher
pops and requeues, one event at a time.  `WatchedUplink` runs the uplink tasks and records the calls
that they make: `WatchedUplink.follows` says that these are the calls of a disciplined watcher, and
that the recorded policy is the one of the relay.

Hence the relay keeps the newest events, in order, whatever the link does: `relay_buffer_newest`.
-/

namespace UnsBridge

open Transition

variable {Bytes ρ : Type}

/-- The calls that a step of the uplink tasks makes on the policy. -/
def Uplink.calls (s : Uplink Bytes) : UplinkAction Bytes → List (PolicyAction (Forwarded Bytes))
  | .relayUp i now =>
    match s.pumps i with
    | .handed m =>
      .admitVerdict m.cls s.siteUp now ::
        if (s.policy.admitVerdict m.cls s.siteUp now).1 = .buffer then [.pushEvt m] else []
    | _ => []
  | .published i .failed =>
    match s.pumps i with
    | .publishing m => if m.cls = .evt then [.pushEvt m] else []
    | _ => []
  | .watch =>
    match s.watcher.phase with
    | .popping => [.popEvt]
    | _ => []
  | .watchPublished .failed =>
    match s.watcher.phase with
    | .replaying m => [.requeueEvtFront m]
    | _ => []
  | _ => []

/-- The state after some calls. -/
def ReplayWatch.calls {ι : Type} (w : ReplayWatch ι) (as : List (PolicyAction ι)) : ReplayWatch ι :=
  as.foldl ReplayWatch.step w

/-- The uplink tasks and a record of their calls on the policy. -/
structure WatchedUplink (Bytes : Type) where
  up : Uplink Bytes
  log : ReplayWatch (Forwarded Bytes)

/-- The uplink tasks with the record as a transition system. -/
def WatchedUplink.system [Inhabited ρ] (S : Setup Bytes ρ) :
    System (WatchedUplink Bytes) (UplinkAction Bytes) where
  init s := ∃ siteUp, s = { up := .start S siteUp, log := .fresh S.policy }
  step s a := (s.up.step S a).map fun r => { up := r.1, log := s.log.calls (s.up.calls a) }

namespace WatchedUplink

/-- The record is one of a disciplined watcher, its policy is that of the relay, and what the
watcher of the relay holds is what that one holds. -/
structure Follows (S : Setup Bytes ρ) (up : Uplink Bytes) (log : ReplayWatch (Forwarded Bytes)) :
    Prop where
  reachable : (ReplayWatch.system (Forwarded Bytes) S.policy.evtBufferMax).Reachable
    ReplayWatch.Disciplined log
  policy : log.policy = up.policy
  held : ∀ m, up.watcher.held = some m → ∃ n, log.held = some (n, m)

variable {S : Setup Bytes ρ} {up up' : Uplink Bytes} {log : ReplayWatch (Forwarded Bytes)}
  {a : UplinkAction Bytes}

/-- A step that makes no call and takes nothing into the hands of the watcher. -/
theorem Follows.quiet (h : Follows S up log) (hpolicy : up'.policy = up.policy)
    (hheld : ∀ m, up'.watcher.held = some m → up.watcher.held = some m) : Follows S up' log :=
  ⟨h.reachable, h.policy.trans hpolicy.symm, fun m hm => h.held m (hheld m hm)⟩

/-- An admission. -/
theorem Follows.admitVerdict (h : Follows S up log) (cls : UnsClass) (connected : Bool)
    (now : Instant) :
    Follows S { up with policy := (up.policy.admitVerdict cls connected now).2 }
      (log.step (.admitVerdict cls connected now)) := by
  have hdisciplined : log.Disciplined (.admitVerdict cls connected now) := by
    rintro item hitem
    cases hitem
  exact ⟨.step h.reachable hdisciplined rfl, by rw [ReplayWatch.step, h.policy], h.held⟩

/-- A push. -/
theorem Follows.pushEvt (h : Follows S up log) (m : Forwarded Bytes) :
    Follows S { up with policy := (up.policy.pushEvt m).2 } (log.step (.pushEvt m)) := by
  have hdisciplined : log.Disciplined (.pushEvt m) := by
    rintro item hitem
    cases hitem
  exact ⟨.step h.reachable hdisciplined rfl, by rw [ReplayWatch.step, h.policy], h.held⟩

/-- What a step that pushes calls: the admission, if there is one, takes no token. -/
theorem Follows.push {i : ℕ} {m : Forwarded Bytes} (h : Follows S up log)
    (hpush : up.Pushes a i m) :
    Follows S { up with policy := (up.policy.pushEvt m).2 } (log.calls (up.calls a)) := by
  cases hpush with
  | admitted i now m hpump hverdict =>
    have hpolicy := UplinkPolicy.admitVerdict_eq hverdict (by simp) (by simp)
    have hadmitted := h.admitVerdict m.cls up.siteUp now
    rw [hpolicy] at hadmitted
    have hcalls : up.calls (.relayUp i now) = [.admitVerdict m.cls up.siteUp now, .pushEvt m] := by
      simp [Uplink.calls, hpump, hverdict]
    rw [hcalls]
    exact hadmitted.pushEvt m
  | fail i m hpump hevt =>
    have hcalls : up.calls (.published i .failed) = [.pushEvt m] := by
      simp [Uplink.calls, hpump, hevt]
    rw [hcalls]
    exact h.pushEvt m

/-- An admission without a push. -/
theorem Follows.admitted (h : Follows S up log) {i : ℕ} {now : Instant} {m : Forwarded Bytes}
    {verdict : UplinkVerdict} {policy : UplinkPolicy (Forwarded Bytes)}
    (hpump : up.pumps i = .handed m)
    (hadmits : up.policy.admitVerdict m.cls up.siteUp now = (verdict, policy))
    (hverdict : verdict ≠ .buffer) :
    Follows S { up with policy } (log.calls (up.calls (.relayUp i now))) := by
  have hadmitted := h.admitVerdict m.cls up.siteUp now
  rw [hadmits] at hadmitted
  have hcalls : up.calls (.relayUp i now) = [.admitVerdict m.cls up.siteUp now] := by
    simp [Uplink.calls, hpump, hadmits, hverdict]
  rw [hcalls]
  exact hadmitted

/-- A pop; the watcher holds what it has popped. -/
theorem Follows.popEvt (h : Follows S up log) (hphase : up.watcher.phase = .popping)
    (hpolicy : up'.policy = up.policy.popEvt.2) (hheld : up'.watcher.held = up.policy.popEvt.1) :
    Follows S up' (log.calls (up.calls .watch)) := by
  have hdisciplined : log.Disciplined .popEvt := by
    rintro item hitem
    cases hitem
  have hcalls : up.calls .watch = [.popEvt] := by simp [Uplink.calls, hphase]
  rw [hcalls]
  refine ⟨.step h.reachable hdisciplined rfl, ?_, fun m hm => ⟨log.first, ?_⟩⟩
  · rw [hpolicy, ← h.policy]
    rfl
  · have hpopped : log.policy.popEvt.1 = some m := by rw [h.policy, ← hheld, hm]
    simp [ReplayWatch.calls, ReplayWatch.step, hpopped]

/-- A requeue of what the watcher holds. -/
theorem Follows.requeueEvtFront {m : Forwarded Bytes} (h : Follows S up log)
    (hphase : up.watcher.phase = .replaying m)
    (hpolicy : up'.policy = (up.policy.requeueEvtFront m).2) (hheld : up'.watcher.held = none) :
    Follows S up' (log.calls (up.calls (.watchPublished .failed))) := by
  have hdisciplined : log.Disciplined (.requeueEvtFront m) := by
    rintro item hitem
    obtain rfl : m = item := by injection hitem
    exact h.held m (by simp [Watcher.held, hphase])
  have hcalls : up.calls (.watchPublished .failed) = [.requeueEvtFront m] := by
    simp [Uplink.calls, hphase]
  rw [hcalls]
  refine ⟨.step h.reachable hdisciplined rfl, ?_, fun m' hm' => by simp [hheld] at hm'⟩
  rw [hpolicy, ← h.policy]
  rfl

variable [Inhabited ρ] {bumps : List Bump}

/-- Every step of the uplink tasks is followed by its calls. -/
theorem Follows.step (h : Follows S up log) (hmove : Uplink.Move S up a up' bumps) :
    Follows S up' (log.calls (up.calls a)) := by
  have hnone : up.calls a = [] → up'.policy = up.policy →
      (∀ m, up'.watcher.held = some m → up.watcher.held = some m) →
        Follows S up' (log.calls (up.calls a)) := by
    intro hcalls hpolicy hheld
    rw [hcalls]
    exact h.quiet hpolicy hheld
  -- the watcher has nothing in its hands
  have hempty : up.calls a = [] → up'.policy = up.policy → up'.watcher.held = none →
      Follows S up' (log.calls (up.calls a)) :=
    fun hcalls hpolicy hheld => hnone hcalls hpolicy fun m hm => by simp [hheld] at hm
  cases hmove with
  | publish | link | refuse | hand | deliver => exact hnone rfl rfl fun _ => id
  | lose i m hpump hevt => exact hnone (by simp [Uplink.calls, hpump, hevt]) rfl fun _ => id
  | goLive i now m policy hpump hadmits | capped i now m policy hpump hadmits =>
    exact (h.admitted hpump hadmits (by simp)).quiet rfl fun _ => id
  | disabled i now m hpump hverdict | disconnected i now m hpump hverdict =>
    have hadmits := UplinkPolicy.admitVerdict_eq hverdict (by simp) (by simp)
    exact (h.admitted hpump hadmits (by simp)).quiet rfl fun _ => id
  | store a i m hpush hroom =>
    have hpushed := h.push hpush
    rw [up.policy.pushEvt_of_room m hroom] at hpushed
    exact hpushed.quiet rfl fun _ => id
  | evict a i m oldest rest hpush hon hfull hbuffer =>
    have hpushed := h.push hpush
    rw [up.policy.pushEvt_of_full m hon hfull, hbuffer] at hpushed
    exact hpushed.quiet rfl fun _ => id
  | reject a i m hpush hoff =>
    have hpushed := h.push hpush
    rw [UplinkPolicy.pushEvt, if_pos hoff] at hpushed
    exact hpushed.quiet rfl fun _ => id
  | baseline hphase | rise hphase | steady hphase | down hphase | skip cmd topic rest hphase
  | broadcast cmd topic rest bytes hphase | enter hphase | count hphase | test hphase =>
    exact hempty (by simp [Uplink.calls, hphase]) rfl rfl
  | broadcasted outcome rest hphase =>
    exact hempty (by cases outcome <;> simp [Uplink.calls, hphase]) rfl rfl
  | complete hphase =>
    rcases hphase with ⟨hphase | hphase, hbuffer⟩ | ⟨hphase, -⟩
    · exact hempty (by simp [Uplink.calls, hphase]) rfl rfl
    · -- the pop finds nothing
      refine h.popEvt hphase ?_ (by simp only [UplinkPolicy.popEvt, hbuffer]; rfl)
      simp only [UplinkPolicy.popEvt, hbuffer, List.tail_nil]
      rw [← hbuffer]
      rfl
    · exact hempty (by simp [Uplink.calls, hphase]) rfl rfl
  | pop m rest hphase hbuffer =>
    exact h.popEvt hphase
      (by simp [UplinkPolicy.popEvt, hbuffer, Uplink.setBuffer, Uplink.watchStep])
      (by simp [UplinkPolicy.popEvt, hbuffer, Uplink.watchStep, Watcher.held])
  | replayed m hphase => exact hempty rfl rfl rfl
  | requeue m hphase hroom =>
    refine h.requeueEvtFront hphase ?_ rfl
    rw [UplinkPolicy.requeueEvtFront, if_neg (Nat.not_le.mpr hroom)]
    rfl
  | refuseRequeue m hphase hfull =>
    refine h.requeueEvtFront hphase ?_ rfl
    rw [UplinkPolicy.requeueEvtFront, if_pos hfull]
    rfl

variable {s : WatchedUplink Bytes}

/-- The uplink tasks run as they do without the record. -/
theorem reachable_up (h : (system S).Reachable System.anyStep s) :
    (Uplink.system S).Reachable System.anyStep s.up := by
  apply h.map (R := System.anyStep) WatchedUplink.up some
  · rintro s ⟨siteUp, rfl⟩
    exact ⟨siteUp, rfl⟩
  · intro s a s' _ hstep
    obtain ⟨r, hr, rfl⟩ := Option.map_eq_some_iff.mp hstep
    exact ⟨trivial, Option.map_eq_some_iff.mpr ⟨r, hr, rfl⟩⟩

/-- And each of their runs has a record. -/
theorem exists_log (h : (Uplink.system S).Reachable System.anyStep up) :
    ∃ log, (system S).Reachable System.anyStep ⟨up, log⟩ := by
  induction h with
  | init hinit =>
    obtain ⟨siteUp, rfl⟩ := hinit
    exact ⟨.fresh S.policy, .init ⟨siteUp, rfl⟩⟩
  | @step up up' a _ _ hstep ih =>
    obtain ⟨log, hlog⟩ := ih
    obtain ⟨r, hr, rfl⟩ := Option.map_eq_some_iff.mp hstep
    refine ⟨log.calls (up.calls a), hlog.step (a := a) trivial ?_⟩
    exact Option.map_eq_some_iff.mpr ⟨r, hr, rfl⟩

/-- In every run the record follows the uplink tasks. -/
theorem follows (h : (system S).Reachable System.anyStep s) : Follows S s.up s.log := by
  apply h.invariant (I := fun s => Follows S s.up s.log)
  · rintro s ⟨siteUp, rfl⟩
    exact ⟨.init ⟨S.policy, rfl, rfl, rfl⟩, rfl, fun m hm => by cases hm⟩
  · rintro s a s' - hfollows - hstep
    obtain ⟨⟨up', bumps⟩, hr, rfl⟩ := Option.map_eq_some_iff.mp hstep
    exact hfollows.step (Uplink.step_move hr)

omit [Inhabited ρ] in
/-- What some calls push is among them. -/
theorem mem_pushed_calls {ι : Type} {item : ι} (as : List (PolicyAction ι)) (w : ReplayWatch ι)
    (h : item ∈ (w.calls as).pushed) : item ∈ w.pushed ∨ .pushEvt item ∈ as := by
  induction as generalizing w with
  | nil => exact Or.inl h
  | cons a as ih =>
    rcases ih (w.step a) h with hpushed | hmem
    · cases a with
      | pushEvt item' =>
        rcases List.mem_append.mp hpushed with hpushed | hnew
        · exact Or.inl hpushed
        · exact Or.inr (by simp [List.mem_singleton.mp hnew])
      | _ => exact Or.inl hpushed
    · exact Or.inr (List.mem_cons_of_mem _ hmem)

omit [Inhabited ρ] in
/-- Only a step that pushes calls a push. -/
theorem pushes_of_mem_calls {m : Forwarded Bytes} (h : .pushEvt m ∈ up.calls a) :
    ∃ i, up.Pushes a i m := by
  cases a with
  | relayUp i now =>
    cases hpump : up.pumps i with
    | handed m' =>
      by_cases hverdict : (up.policy.admitVerdict m'.cls up.siteUp now).1 = .buffer
      · obtain rfl : m = m' := by simpa [Uplink.calls, hpump, hverdict] using h
        exact ⟨i, .admitted i now m hpump hverdict⟩
      · simp [Uplink.calls, hpump, hverdict] at h
    | _ => simp [Uplink.calls, hpump] at h
  | published i outcome =>
    cases outcome with
    | ok => simp [Uplink.calls] at h
    | failed =>
      cases hpump : up.pumps i with
      | publishing m' =>
        by_cases hevt : m'.cls = .evt
        · obtain rfl : m = m' := by simpa [Uplink.calls, hpump, hevt] using h
          exact ⟨i, .fail i m hpump hevt⟩
        · simp [Uplink.calls, hpump, hevt] at h
      | _ => simp [Uplink.calls, hpump] at h
  | watch => cases hphase : up.watcher.phase <;> simp [Uplink.calls, hphase] at h
  | watchPublished outcome =>
    cases outcome <;> cases hphase : up.watcher.phase <;> simp [Uplink.calls, hphase] at h
  | _ => simp [Uplink.calls] at h

/-- Where an event is that has been pushed. -/
def Kept (up : Uplink Bytes) (m : Forwarded Bytes) : Prop :=
  m ∈ up.policy.evtBuffer ∨ up.watcher.held = some m ∨ m ∈ up.delivered ∨ m ∈ up.discarded

/-- No step loses an event that has been pushed. -/
theorem Kept.step {m : Forwarded Bytes} (h : Kept up m) (hmove : Uplink.Move S up a up' bumps) :
    Kept up' m := by
  -- what the watcher holds is not lost where it holds nothing
  have hempty : up.watcher.held = none → up'.policy = up.policy → up'.delivered = up.delivered →
      up'.discarded = up.discarded → Kept up' m := by
    intro hheld hpolicy hdelivered hdiscarded
    unfold Kept at h ⊢
    rw [hpolicy, hdelivered, hdiscarded]
    simp only [hheld] at h
    tauto
  cases hmove with
  | publish | link | refuse | hand => exact h
  | goLive i now m' policy hpump hadmits =>
    unfold Kept at h ⊢
    rw [← UplinkPolicy.evtBuffer_of_admitVerdict hadmits] at h
    exact h
  | capped i now m' policy hpump hadmits =>
    unfold Kept at h ⊢
    rw [← UplinkPolicy.evtBuffer_of_admitVerdict hadmits] at h
    exact h.imp_right (Or.imp_right (Or.imp_right (List.mem_append_left _)))
  | disabled | disconnected | reject | lose =>
    exact h.imp_right (Or.imp_right (Or.imp_right (List.mem_append_left _)))
  | store => exact h.imp_left (List.mem_append_left _)
  | evict a i m' oldest rest hpush hon hfull hbuffer =>
    unfold Kept at h ⊢
    simp only [hbuffer, List.mem_cons] at h
    simp only [Uplink.discard, Uplink.setBuffer, Uplink.setPump, List.mem_append,
      List.mem_singleton]
    tauto
  | deliver => exact h.imp_right (Or.imp_right (Or.imp_left (List.mem_append_left _)))
  | baseline hphase | rise hphase | steady hphase | down hphase | skip cmd topic rest hphase
  | broadcast cmd topic rest bytes hphase | broadcasted outcome rest hphase | enter hphase
  | count hphase | test hphase =>
    exact hempty (by simp [Watcher.held, hphase]) rfl rfl rfl
  | complete hphase =>
    refine hempty ?_ rfl rfl rfl
    rcases hphase with ⟨hphase | hphase, -⟩ | ⟨hphase, -⟩ <;> simp [Watcher.held, hphase]
  | pop m' rest hphase hbuffer =>
    have hheld : up.watcher.held = none := by simp [Watcher.held, hphase]
    unfold Kept at h ⊢
    simp only [hbuffer, hheld, List.mem_cons] at h
    simp only [Uplink.watchStep, Uplink.setBuffer, Watcher.held, Option.some.injEq]
    tauto
  | replayed m' hphase =>
    have hheld : up.watcher.held = some m' := by simp [Watcher.held, hphase]
    unfold Kept at h ⊢
    simp only [hheld, Option.some.injEq] at h
    simp only [Uplink.watchStep, List.mem_append, List.mem_singleton]
    tauto
  | requeue m' hphase hroom =>
    have hheld : up.watcher.held = some m' := by simp [Watcher.held, hphase]
    unfold Kept at h ⊢
    simp only [hheld, Option.some.injEq] at h
    simp only [Uplink.completeIteration, Uplink.setBuffer, List.mem_cons]
    tauto
  | refuseRequeue m' hphase hfull =>
    have hheld : up.watcher.held = some m' := by simp [Watcher.held, hphase]
    unfold Kept at h ⊢
    simp only [hheld, Option.some.injEq] at h
    simp only [Uplink.completeIteration, Uplink.discard, List.mem_append, List.mem_singleton]
    tauto

/-- What a step pushes is kept. -/
theorem Kept.of_pushes {i : ℕ} {m : Forwarded Bytes} (hpush : up.Pushes a i m)
    (hmove : Uplink.Move S up a up' bumps) : Kept up' m := by
  have hsame : ∀ {r : Uplink Bytes} {bs}, Uplink.Move S up a r bs → up' = r := by
    intro r bs hr
    exact (Prod.mk.inj (Option.some.inj (hmove.step.symm.trans hr.step))).1
  rcases Nat.eq_zero_or_pos up.policy.evtBufferMax with hoff | hon
  · rw [hsame (.reject a i m hpush hoff)]
    simp [Kept, Uplink.discard]
  · rcases Nat.lt_or_ge up.policy.evtBuffer.length up.policy.evtBufferMax with hroom | hfull
    · rw [hsame (.store a i m hpush hroom)]
      simp [Kept, Uplink.setBuffer]
    · obtain ⟨oldest, rest, hbuffer⟩ := List.exists_cons_of_length_pos (hon.trans_le hfull)
      rw [hsame (.evict a i m oldest rest hpush hon hfull hbuffer)]
      simp [Kept, Uplink.setBuffer, Uplink.discard]

/-- In every run everything that has been pushed is kept. -/
theorem kept (h : (system S).Reachable System.anyStep s) : ∀ m ∈ s.log.pushed, Kept s.up m := by
  apply h.invariant (I := fun s => ∀ m ∈ s.log.pushed, Kept s.up m)
  · rintro s ⟨siteUp, rfl⟩ m hm
    cases hm
  · rintro s a s' - hkept - hstep m hm
    obtain ⟨⟨up', bumps⟩, hr, rfl⟩ := Option.map_eq_some_iff.mp hstep
    have hmove := Uplink.step_move hr
    rcases mem_pushed_calls _ _ hm with hpushed | hcalled
    · exact (hkept m hpushed).step hmove
    · obtain ⟨i, hpush⟩ := pushes_of_mem_calls hcalled
      exact Kept.of_pushes hpush hmove

end WatchedUplink

/-- The relay always has the newest events in its replay buffer.  With every call on the policy on
record, the uplink tasks run as they do without the record; and in every run:

* The recorded policy is the one of the relay.
* The replay buffer is the end of the sequence of all events that the pumps have pushed, in order,
  and keeps the configured bound.
* The event whose replay is under way was pushed before everything in the buffer: right before it,
  or the buffer has filled up in the meantime.
* What the watcher has popped so far came out in the order of the pushes.
* An event that has been pushed is in the buffer, under replay, delivered or discarded.
-/
theorem relay_buffer_newest [Inhabited ρ] (S : Setup Bytes ρ) :
    (∀ up, (Uplink.system S).Reachable System.anyStep up ↔
      ∃ log, (WatchedUplink.system S).Reachable System.anyStep ⟨up, log⟩) ∧
    ∀ s, (WatchedUplink.system S).Reachable System.anyStep s →
      s.log.policy = s.up.policy ∧
      (s.up.policy.evtBuffer =
          s.log.pushed.drop (s.log.pushed.length - s.up.policy.evtBuffer.length) ∧
        s.up.policy.evtBuffer.length ≤ S.policy.evtBufferMax) ∧
      (∀ m, s.up.watcher.held = some m → ∃ n, s.log.pushed[n]? = some m ∧
        (n + 1 + s.up.policy.evtBuffer.length = s.log.pushed.length ∨
          n + 1 + s.up.policy.evtBuffer.length < s.log.pushed.length ∧
            s.up.policy.evtBuffer.length = S.policy.evtBufferMax)) ∧
      ((∀ p ∈ s.log.pops, s.log.pushed[p.1]? = some p.2) ∧
        s.log.pops.Pairwise fun p q => p.1 ≤ q.1) ∧
      ∀ m ∈ s.log.pushed, m ∈ s.up.policy.evtBuffer ∨ s.up.watcher.held = some m ∨
        m ∈ s.up.delivered ∨ m ∈ s.up.discarded := by
  refine ⟨fun up => ?_, fun s h => ?_⟩
  · constructor
    · exact WatchedUplink.exists_log
    · rintro ⟨log, hlog⟩
      exact WatchedUplink.reachable_up hlog
  · have hfollows := WatchedUplink.follows h
    obtain ⟨hsound, hmax⟩ := ReplayWatch.sound hfollows.reachable
    have hlength := hsound.length_pushed
    have hbounded := hsound.bounded
    have hsuffix := hsound.suffix
    have hbefore := hsound.held_before
    rw [hfollows.policy] at hlength hbounded hmax hsuffix hbefore
    rw [hmax] at hbounded
    refine ⟨hfollows.policy, ⟨?_, hbounded⟩, fun m hm => ?_, ⟨hsound.pop_mem, hsound.pops_ordered⟩,
      WatchedUplink.kept h⟩
    · rwa [ReplayWatch.first, hfollows.policy] at hsuffix
    · obtain ⟨n, hheld⟩ := hfollows.held m hm
      obtain ⟨hlt, hgap⟩ := hbefore _ hheld
      refine ⟨n, (hsound.of_held hheld).1, ?_⟩
      simp only [hmax] at hgap hlt
      omega

/-- The sample bridge with room for two events. -/
def Setup.twoEvents : Setup (Message Unit) Unit := Setup.gw01.withUplink
  { classes := Finmap.singleton "evt" { bufferWhileDisconnected := some { maxMessages := 2 } } }

/-- Two events are buffered while the link is down; two more come in while the watcher replays the
first one. -/
def filledRun : List (UplinkAction (Message Unit)) :=
  List.replicate 4 (.publish "ecv1/gw-01/adapter/main/evt/alarm" (.sample none)) ++
    [.watch, .link false, .recv 4, .relayUp 4 0, .recv 4, .relayUp 4 0, .watch, .link true, .watch,
      .watch, .watchPublished .ok, .watch, .watchPublished .ok, .watch, .watch, .watch, .recv 4,
      .relayUp 4 0, .recv 4, .relayUp 4 0]

/-- After that run the buffer has the two newest events, and the first one is under replay. -/
theorem relay_buffer_newest_filled : ∃ s : WatchedUplink (Message Unit),
    s.up.policy.evtBuffer.map Forwarded.publish = [2, 3] ∧
    s.log.pushed.map Forwarded.publish = [0, 1, 2, 3] ∧
    s.up.watcher.held.map Forwarded.publish = some 0 ∧
    s.up.policy.evtBuffer = s.log.pushed.drop 2 := by
  obtain ⟨s, hs, hobs⟩ := System.exists_reachable_of_exec
    (M := WatchedUplink.system Setup.twoEvents) (fun _ _ => true) (P := System.anyStep)
    (fun _ _ _ => trivial) (.init ⟨true, rfl⟩) filledRun
    (fun s => (s.up.policy.evtBuffer.map Forwarded.publish, s.log.pushed.map Forwarded.publish,
      s.up.watcher.held.map Forwarded.publish)) (x := ([2, 3], [0, 1, 2, 3], some 0))
    (by decide +kernel)
  simp only [Prod.mk.injEq] at hobs
  obtain ⟨hbuffer, hpushed, hheld⟩ := hobs
  have hlength : s.up.policy.evtBuffer.length = 2 := by simpa using congrArg List.length hbuffer
  have hlength' : s.log.pushed.length = 4 := by simpa using congrArg List.length hpushed
  refine ⟨s, hbuffer, hpushed, hheld, ?_⟩
  simpa [hlength, hlength'] using ((relay_buffer_newest Setup.twoEvents).2 s hs).2.1.1

end UnsBridge
