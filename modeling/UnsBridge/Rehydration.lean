import UnsBridge.Io.RelayIo
import UnsBridge.Io.UplinkWatch
import UnsBridge.Lib.History

/-!
# Rehydration after an outage

The connectivity watcher makes the two rehydration broadcasts on the rising edge of its samples of
the link, before it replays the buffered events.  A sample is taken at a tick, and the next one
after a round that may contain a replay of any length.  An outage that falls between two samples
which both read up has no edge: the link is up again, and no broadcast is made, although the replay
loop itself may have seen the link down.

In a run in which the link never comes up unseen in this way, every completed round that observed
the link up has told the devices about every outage before, and no event is replayed before that.
-/

namespace UnsBridge

open Transition History

variable {Bytes ρ : Type}

/-! ### What the history of the watcher is to satisfy -/

/-- The event is a sample of a round of the watcher. -/
def WatchEvent.IsSample (e : WatchEvent) : Prop := ∃ connected, e = .observed connected

/-- The link has just come up again, after a down period that began after the baseline sample. -/
def Recovered (h : List WatchEvent) : Prop :=
  ∃ before between down, h = before ++ .baseline :: between ++ .linkDown :: down ++ [.linkUp]

/-- Since every recovery of the link before the last sample, which read up, a broadcast has been
made on the topic. -/
def Told (topic : String) (h : List WatchEvent) : Prop :=
  ∀ before since, LastMark WatchEvent.IsSample h before (.observed true) since →
    ∀ rest, Since Recovered before rest → .broadcast topic ∈ rest ++ since

/-- What an event of the watcher asks of the history before it: a round that observed the link up
completes, and an event is replayed, with the broadcasts made since every recovery. -/
def Rehydrated (topics : List String) (past : List WatchEvent) : WatchEvent → Prop
  | .completed => ∀ topic ∈ topics, Told topic past
  | .replay => ∀ topic ∈ topics, Answered Recovered (.broadcast topic) past
  | _ => True

/-- Whether the link has come up since the last sample, and since the last broadcast on the topic.
-/
def missedRise (topic : String) (h : List WatchEvent) : Bool :=
  h.foldl (fun missed e => match e with
    | .linkUp => true
    | .baseline | .observed _ => false
    | .broadcast topic' => if topic' = topic then false else missed
    | _ => missed) false

/-- The watcher neither takes two samples in a row that both read up nor pops a buffered event while
it has missed a rise of the link. -/
def Uplink.SeesRises (S : Setup Bytes ρ) (s : Uplink Bytes) (a : UplinkAction Bytes) : Prop :=
  a = .watch →
    (s.watcher.phase = .waiting ∧ s.siteUp = true ∧ s.watcher.wasConnected = true) ∨
      (s.watcher.phase = .popping ∧ s.policy.evtBuffer ≠ []) →
    ∀ topic ∈ S.engine.rehydrationTopics, missedRise topic s.trace = false

section Trace

variable {topic : String} {h : List WatchEvent} {e : WatchEvent}

/-- A history recovers only with the link coming up. -/
theorem not_recovered_snoc (he : e ≠ .linkUp) : ¬ Recovered (h ++ [e]) := by
  rintro ⟨before, between, down, heq⟩
  obtain ⟨-, hlast⟩ := List.append_inj' heq rfl
  exact he (List.singleton_inj.mp hlast)

/-- Before the baseline sample nothing recovers. -/
theorem answered_baseline (hh : .baseline ∉ h) : Answered Recovered e (h ++ [.baseline]) := by
  intro rest hs
  rcases hs.of_snoc with ⟨-, hnew⟩ | ⟨rest', -, past, rfl, before, between, down, rfl⟩
  · exact absurd hnew (not_recovered_snoc (by simp))
  · exact absurd hh (by simp)

/-- What is known about a topic in the middle of a round: the broadcasts due when the round
completes have been made, and those due now as well, unless a rise has been missed. -/
structure Due (topic : String) (h : List WatchEvent) : Prop where
  told : Told topic h
  answered : missedRise topic h = false → Answered Recovered (.broadcast topic) h

/-- A broadcast that has been made stays so until the next sample. -/
theorem Told.snoc (ht : Told topic h) (he : ¬ e.IsSample) : Told topic (h ++ [e]) := by
  intro before since hlast rest hs
  obtain ⟨since', rfl, hlast'⟩ := hlast.of_snoc he
  rw [← List.append_assoc]
  exact List.mem_append_left _ (ht before since' hlast' rest hs)

/-- A broadcast is made by making it. -/
theorem Due.broadcast : Due topic (h ++ [.broadcast topic]) where
  told := by
    intro before since hlast rest hs
    obtain ⟨since', rfl, -⟩ := hlast.of_snoc (by simp [WatchEvent.IsSample])
    simp
  answered _ := Answered.self (not_recovered_snoc (by simp))

/-- What is known about a topic stays so through the events of a round. -/
theorem Due.snoc (hd : Due topic h) (he : ¬ e.IsSample) (hup : e ≠ .linkUp)
    (hmissed : missedRise topic (h ++ [e]) = missedRise topic h) : Due topic (h ++ [e]) where
  told := hd.told.snoc he
  answered hsees := (hd.answered (hmissed ▸ hsees)).snoc (not_recovered_snoc hup)

/-- What is known about a topic stays so when the link changes: a rise is missed from now on. -/
theorem Due.link (hd : Due topic h) (up : Bool) :
    Due topic (h ++ [if up then .linkUp else .linkDown]) := by
  cases up with
  | true =>
    refine ⟨hd.told.snoc (by simp [WatchEvent.IsSample]), fun hsees => ?_⟩
    simp [missedRise] at hsees
  | false => exact hd.snoc (by simp [WatchEvent.IsSample]) (by simp) (by simp [missedRise])

/-- A round that samples the link up without a missed rise owes no broadcast. -/
theorem Due.sample (ha : Answered Recovered (.broadcast topic) h) :
    Due topic (h ++ [.observed true]) where
  told := by
    intro before since hlast rest hs
    obtain ⟨rfl, -, rfl⟩ := hlast.of_snoc_mark ⟨true, rfl⟩
    rw [List.append_nil]
    exact ha rest hs
  answered _ := ha.snoc (not_recovered_snoc (by simp))

end Trace

/-! ### Every round -/

namespace Uplink

variable {S : Setup Bytes ρ} {s s' : Uplink Bytes} {a : UplinkAction Bytes}

/-- What is known about the topics where the watcher stands: before the baseline nothing, between
two rounds that the broadcasts have been made if its remembered sample reads up, and in a round what
is due, but for the broadcasts that are still to be made. -/
def Informed (S : Setup Bytes ρ) (w : Watcher Bytes) (h : List WatchEvent) : Prop :=
  match w.phase with
  | .starting => .baseline ∉ h
  | .waiting => w.wasConnected = true → ∀ topic ∈ S.engine.rehydrationTopics,
      missedRise topic h = false → Answered Recovered (.broadcast topic) h
  | .broadcast rest | .broadcasting rest => (∀ p ∈ rest, p.1 ∈ REHYDRATION_CMDS) ∧
      ∀ topic ∈ S.engine.rehydrationTopics, topic ∈ rest.map Prod.snd ∨ Due topic h
  | _ => ∀ topic ∈ S.engine.rehydrationTopics, Due topic h

/-- In the replay of a round every topic is due. -/
theorem informed_of_replays {w : Watcher Bytes} {h : List WatchEvent} (hphase : w.phase.Replays) :
    Informed S w h ↔ ∀ topic ∈ S.engine.rehydrationTopics, Due topic h := by
  unfold Informed
  cases hw : w.phase <;> simp_all [WatcherPhase.Replays]

/-- What is known stays known when the link changes. -/
theorem Informed.link {w : Watcher Bytes} {h : List WatchEvent} (hI : Informed S w h) (up : Bool) :
    Informed S w (h ++ [if up then .linkUp else .linkDown]) := by
  unfold Informed at hI ⊢
  cases hw : w.phase with
  | starting =>
    simp only [hw] at hI ⊢
    cases up <;> simpa using hI
  | waiting =>
    simp only [hw] at hI ⊢
    intro hwas topic htopic hsees
    cases up with
    | true => simp [missedRise] at hsees
    | false =>
      have hsees' : missedRise topic h = false := by simpa [missedRise] using hsees
      exact (hI hwas topic htopic hsees').snoc (not_recovered_snoc (by simp))
  | broadcast rest =>
    simp only [hw] at hI ⊢
    exact ⟨hI.1, fun topic htopic => (hI.2 topic htopic).imp id fun hd => hd.link up⟩
  | broadcasting rest =>
    simp only [hw] at hI ⊢
    exact ⟨hI.1, fun topic htopic => (hI.2 topic htopic).imp id fun hd => hd.link up⟩
  | _ =>
    simp only [hw] at hI ⊢
    exact fun topic htopic => (hI topic htopic).link up

/-- Every step of the watcher keeps what is known, and what it leaves in the trace is justified. -/
theorem WatchMove.informed {w : Watcher Bytes} {es : List WatchEvent}
    (hencodes : ∀ cmd ∈ REHYDRATION_CMDS, (S.codec.toVec (S.notification cmd)).isSome = true)
    (hI : Informed S s.watcher s.trace) (hsees : s.SeesRises S a) (hmove : WatchMove S s a w es)
    (hJ : Justified (Rehydrated S.engine.rehydrationTopics) s.trace) :
    Informed S w (s.trace ++ es) ∧
      Justified (Rehydrated S.engine.rehydrationTopics) (s.trace ++ es) := by
  cases hmove with
  | keep => simpa using ⟨hI, hJ⟩
  | link up => exact ⟨hI.link up, hJ.snoc (by cases up <;> trivial)⟩
  | baseline hphase =>
    have hfresh : .baseline ∉ s.trace := by simpa [Informed, hphase] using hI
    exact ⟨fun _ topic _ _ => answered_baseline hfresh, hJ.snoc trivial⟩
  | rise hphase hup hwas =>
    refine ⟨⟨fun p hp => (List.of_mem_zip hp).1, fun topic htopic => Or.inl ?_⟩, hJ.snoc trivial⟩
    rwa [S.map_snd_broadcasts]
  | steady hphase hup hwas =>
    have hknown := hsees rfl (Or.inl ⟨hphase, hup, hwas⟩)
    simp only [Informed, hphase] at hI
    refine ⟨fun topic htopic => ?_, hJ.snoc trivial⟩
    exact Due.sample (hI hwas topic htopic (hknown topic htopic))
  | down hphase hdown =>
    refine ⟨fun hwas => absurd hwas (by simp), ?_⟩
    have htwo : s.trace ++ [.observed false, .completed] = (s.trace ++ [.observed false]) ++
      [.completed] := by simp
    rw [htwo]
    refine (hJ.snoc (e := .observed false) trivial).snoc fun topic _ before since hlast => ?_
    obtain ⟨-, hsample, -⟩ := hlast.of_snoc_mark ⟨false, rfl⟩
    cases hsample
  | skip cmd topic rest hphase hencode =>
    simp only [Informed, hphase] at hI
    have hsome := hencodes cmd (hI.1 _ List.mem_cons_self)
    rw [hencode] at hsome
    cases hsome
  | broadcast cmd topic rest hphase =>
    simp only [Informed, hphase] at hI
    refine ⟨⟨fun p hp => hI.1 p (List.mem_cons_of_mem _ hp), fun topic' htopic' => ?_⟩,
      hJ.snoc trivial⟩
    by_cases heq : topic = topic'
    · exact Or.inr (heq ▸ Due.broadcast)
    · rcases hI.2 topic' htopic' with hrest | hdue
      · rw [List.map_cons, List.mem_cons] at hrest
        exact Or.inl (hrest.resolve_left (Ne.symm heq))
      · exact Or.inr (hdue.snoc (by simp [WatchEvent.IsSample]) (by simp)
          (by simp [missedRise, heq]))
  | broadcasted outcome rest hphase =>
    simp only [List.append_nil, Informed, hphase] at hI ⊢
    exact ⟨hI, hJ⟩
  | enter hphase =>
    simp only [List.append_nil, Informed, hphase] at hI ⊢
    exact ⟨fun topic htopic => (hI.2 topic htopic).resolve_left (by simp), hJ⟩
  | advance a phase hphase hphase' =>
    rw [List.append_nil, informed_of_replays hphase']
    exact ⟨(informed_of_replays hphase).mp hI, hJ⟩
  | replay m hphase hbuffer =>
    have hknown := hsees rfl (Or.inr ⟨hphase, hbuffer⟩)
    simp only [Informed, hphase] at hI
    refine ⟨fun topic htopic => ?_, hJ.snoc fun topic htopic => ?_⟩
    · exact (hI topic htopic).snoc (by simp [WatchEvent.IsSample]) (by simp) (by simp [missedRise])
    · exact (hI topic htopic).answered (hknown topic htopic)
  | complete a hphase =>
    have hdue := (informed_of_replays hphase).mp hI
    refine ⟨fun _ topic htopic hmissed => ?_, hJ.snoc fun topic htopic => (hdue topic htopic).told⟩
    have hmissed' : missedRise topic s.trace = false := by simpa [missedRise] using hmissed
    exact ((hdue topic htopic).answered hmissed').snoc (not_recovered_snoc (by simp))

variable [Inhabited ρ]

/-- Where the watcher sees every rise of the link, what is known stays known and the trace is
justified in every state of every run. -/
theorem informed (hencodes : ∀ cmd ∈ REHYDRATION_CMDS,
      (S.codec.toVec (S.notification cmd)).isSome = true)
    (h : (system S).Reachable (SeesRises S) s) :
    Informed S s.watcher s.trace ∧
      Justified (Rehydrated S.engine.rehydrationTopics) s.trace := by
  refine h.invariant (I := fun s => Informed S s.watcher s.trace ∧
    Justified (Rehydrated S.engine.rehydrationTopics) s.trace) ?_ ?_
  · rintro s ⟨siteUp, rfl⟩
    refine ⟨?_, Justified.nil⟩
    simp [Informed, start]
  · intro s a s' _ hI hsees hstep
    obtain ⟨⟨s'', bumps⟩, hs, rfl⟩ := Option.map_eq_some_iff.mp hstep
    obtain ⟨es, htrace, hmove⟩ := step_watchMove hs
    rw [htrace]
    exact hmove.informed hencodes hI.1 hsees hI.2

end Uplink

/-- Every recovery of the site link is followed by the rehydration broadcasts.  In every run in
which the watcher sees every rise of the link, a round that observed the link up completes only when
both broadcasts have been made since every recovery before its sample, and no event is replayed
before both have been made since every recovery. -/
theorem recoveries_rehydrated [Inhabited ρ] (S : Setup Bytes ρ)
    (hencodes : ∀ cmd ∈ REHYDRATION_CMDS, (S.codec.toVec (S.notification cmd)).isSome = true)
    {s : RelayIo Bytes} (h : (RelayIo.system S).Reachable (RelayIo.onUp (Uplink.SeesRises S)) s) :
    Justified (Rehydrated S.engine.rehydrationTopics) s.up.trace :=
  (Uplink.informed hencodes (RelayIo.reachable_up h)).2

/-- A sufficient test for a step of the watcher that sees the rises of the link. -/
def seesRises (S : Setup Bytes ρ) (s : RelayIo Bytes) : RelayIoAction Bytes → Bool
  | .up .watch => S.engine.rehydrationTopics.all (fun topic => !missedRise topic s.up.trace) ||
      match s.up.watcher.phase with
      | .waiting => !s.up.watcher.wasConnected
      | .popping => s.up.policy.evtBuffer.isEmpty
      | _ => true
  | _ => true

/-- A step that passes the test sees the rises of the link. -/
theorem seesRises_of_test (S : Setup Bytes ρ) (s : RelayIo Bytes) (a : RelayIoAction Bytes)
    (h : seesRises S s a = true) : RelayIo.onUp (Uplink.SeesRises S) s a := by
  rintro b rfl rfl hstand topic htopic
  rcases Bool.or_eq_true_iff.mp h with hall | hphase
  · simpa using List.all_eq_true.mp hall topic htopic
  · rcases hstand with ⟨hwaiting, -, hwas⟩ | ⟨hpopping, hbuffer⟩
    · simp [hwaiting, hwas] at hphase
    · simp [hpopping, hbuffer] at hphase

/-- An event is received during an outage that the watcher sees. -/
def outageRun : List (RelayIoAction (Message Unit)) :=
  [.up .watch, .up (.link false), .up (.publish "ecv1/gw-01/adapter/main/evt/alarm" (.sample none)),
    .up (.recv 4), .up (.relayUp 4 0), .up .watch, .up (.link true), .up .watch, .up .watch,
    .up (.watchPublished .ok), .up .watch, .up (.watchPublished .failed), .up .watch, .up .watch,
    .up .watch, .up (.watchPublished .ok), .up .watch, .up .watch]

/-- In the sample run the relay of device `gw-01` makes both broadcasts before it replays the event.
-/
theorem recoveries_rehydrated_gw01 : ∃ s : RelayIo (Message Unit),
    s.up.trace = [.baseline, .linkDown, .observed false, .completed, .linkUp, .observed true,
      .broadcast "ecv1/gw-01/_bcast/cmd/republish-state",
      .broadcast "ecv1/gw-01/_bcast/cmd/republish-cfg", .replay, .completed] ∧
    Justified (Rehydrated Setup.gw01.engine.rehydrationTopics) s.up.trace := by
  obtain ⟨s, hs, htrace⟩ := System.exists_reachable_of_exec (M := RelayIo.system Setup.gw01)
    (seesRises Setup.gw01) (seesRises_of_test Setup.gw01) (.init ⟨true, rfl⟩) outageRun
    (fun s => s.up.trace) rfl
  exact ⟨s, htrace, recoveries_rehydrated Setup.gw01 (fun _ _ => rfl) hs⟩

/-- A live publish fails, and its event is buffered.  The link goes down when the watcher is about
to replay it, the watcher sees that and ends its round, and the link comes up before the next
sample. -/
def unseenOutageRun : List (RelayIoAction (Message Unit)) :=
  [.up .watch, .up (.publish "ecv1/gw-01/adapter/main/evt/alarm" (.sample none)), .up (.recv 4),
    .up (.relayUp 4 0), .up (.published 4 .failed), .up .watch, .up .watch, .up (.link false),
    .up .watch, .up (.link true), .up .watch, .up .watch, .up .watch, .up .watch,
    .up (.watchPublished .ok), .up .watch, .up .watch]

/-- In general a recovery of the site link is not followed by the broadcasts: the relay of device
`gw-01` replays an event after an outage and completes the round without any broadcast. -/
theorem recovery_not_rehydrated : ∃ s : RelayIo (Message Unit),
    (RelayIo.system Setup.gw01).Reachable System.anyStep s ∧
      s.up.trace = [.baseline, .observed true, .linkDown, .completed, .linkUp, .observed true,
        .replay, .completed] ∧
      ¬ Justified (Rehydrated Setup.gw01.engine.rehydrationTopics) s.up.trace := by
  obtain ⟨s, hs, htrace⟩ := System.exists_reachable_of_exec (M := RelayIo.system Setup.gw01)
    (fun _ _ => true) (fun _ _ _ => trivial) (.init ⟨true, rfl⟩) unseenOutageRun
    (fun s => s.up.trace) rfl
  refine ⟨s, hs, htrace, fun hJ => ?_⟩
  have hcompleted := hJ [.baseline, .observed true, .linkDown, .completed, .linkUp, .observed true,
    .replay] .completed [] htrace
  have htold := hcompleted "ecv1/gw-01/_bcast/cmd/republish-state" (by decide)
  have hlast : LastMark WatchEvent.IsSample [.baseline, .observed true, .linkDown, .completed,
      .linkUp, .observed true, .replay] [.baseline, .observed true, .linkDown, .completed, .linkUp]
      (.observed true) [.replay] :=
    ⟨rfl, ⟨true, rfl⟩, by simp [WatchEvent.IsSample]⟩
  have hrecovered :
      Since Recovered [.baseline, .observed true, .linkDown, .completed, .linkUp] [] :=
    ⟨_, rfl, [], [.observed true], [.completed], rfl⟩
  simpa using htold _ _ hlast [] hrecovered

end UnsBridge
