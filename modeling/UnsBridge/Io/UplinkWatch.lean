import UnsBridge.Io.UplinkMoves

/-!
# The rounds of the connectivity watcher

`Uplink.WatchMove` lists what a step of the uplink does to the watcher and to its trace: only the
link and the watcher itself do something there.  A round begins with a sample of the link.  Where
the sample is a rising edge the watcher makes its broadcasts and then replays; where the link was up
before it replays what is buffered; where the link is down the round is over.
-/

namespace UnsBridge

open Transition

variable {Bytes ρ : Type}

/-- The watcher is past its sample and its broadcasts, if it had to make some. -/
def WatcherPhase.Replays : WatcherPhase Bytes → Prop
  | .counting | .testing | .popping | .replaying _ => True
  | .starting | .waiting | .broadcast _ | .broadcasting _ => False

/-- The broadcasts that the watcher still has to make. -/
def WatcherPhase.todo : WatcherPhase Bytes → List (String × String)
  | .broadcast rest | .broadcasting rest => rest
  | _ => []

/-- The broadcasts are made on the rehydration topics of the engine. -/
theorem Setup.map_snd_broadcasts (S : Setup Bytes ρ) :
    S.broadcasts.map Prod.snd = S.engine.rehydrationTopics := by
  obtain ⟨device, maxHops, appEnabled, hnew⟩ := S.engine_new
  apply List.map_snd_zip
  simp [RelayEngine.rehydrationTopics_of_new hnew]

/-- The events of a trace that are about the link. -/
def WatchEvent.isLink : WatchEvent → Bool
  | .linkDown | .linkUp => true
  | _ => false

namespace Uplink

/-- What a step does to the watcher, with the events it leaves in the trace. -/
inductive WatchMove (S : Setup Bytes ρ) (s : Uplink Bytes) :
    UplinkAction Bytes → Watcher Bytes → List WatchEvent → Prop
  /-- Nothing. -/
  | keep (a : UplinkAction Bytes) : WatchMove S s a s.watcher []
  /-- The link goes down or comes up. -/
  | link (up : Bool) : WatchMove S s (.link up) s.watcher [if up then .linkUp else .linkDown]
  /-- The baseline sample. -/
  | baseline (hphase : s.watcher.phase = .starting) :
      WatchMove S s .watch { s.watcher with phase := .waiting, wasConnected := s.siteUp }
        [.baseline]
  /-- A sample that is a rising edge. -/
  | rise (hphase : s.watcher.phase = .waiting) (hup : s.siteUp = true)
      (hwas : s.watcher.wasConnected = false) :
      WatchMove S s .watch
        { phase := .broadcast S.broadcasts, wasConnected := false, connected := true }
        [.observed true]
  /-- A sample that finds the link up as before. -/
  | steady (hphase : s.watcher.phase = .waiting) (hup : s.siteUp = true)
      (hwas : s.watcher.wasConnected = true) :
      WatchMove S s .watch { phase := .counting, wasConnected := true, connected := true }
        [.observed true]
  /-- A sample that finds the link down. -/
  | down (hphase : s.watcher.phase = .waiting) (hdown : s.siteUp = false) :
      WatchMove S s .watch { phase := .waiting, wasConnected := false, connected := false }
        [.observed false, .completed]
  /-- A broadcast cannot be encoded. -/
  | skip (cmd topic : String) (rest : List (String × String))
      (hphase : s.watcher.phase = .broadcast ((cmd, topic) :: rest))
      (hencode : S.codec.toVec (S.notification cmd) = none) :
      WatchMove S s .watch { s.watcher with phase := .broadcast rest } []
  /-- A broadcast starts. -/
  | broadcast (cmd topic : String) (rest : List (String × String))
      (hphase : s.watcher.phase = .broadcast ((cmd, topic) :: rest)) :
      WatchMove S s .watch { s.watcher with phase := .broadcasting rest } [.broadcast topic]
  /-- A broadcast has been made, or not. -/
  | broadcasted (outcome : Outcome) (rest : List (String × String))
      (hphase : s.watcher.phase = .broadcasting rest) :
      WatchMove S s (.watchPublished outcome) { s.watcher with phase := .broadcast rest } []
  /-- After the broadcasts the replay begins. -/
  | enter (hphase : s.watcher.phase = .broadcast []) :
      WatchMove S s .watch { s.watcher with phase := .testing } []
  /-- The replay goes on. -/
  | advance (a : UplinkAction Bytes) (phase : WatcherPhase Bytes)
      (hphase : s.watcher.phase.Replays) (hphase' : phase.Replays) :
      WatchMove S s a { s.watcher with phase } []
  /-- A buffered event is replayed. -/
  | replay (m : Forwarded Bytes) (hphase : s.watcher.phase = .popping)
      (hbuffer : s.policy.evtBuffer ≠ []) :
      WatchMove S s .watch { s.watcher with phase := .replaying m } [.replay]
  /-- The round is over. -/
  | complete (a : UplinkAction Bytes) (hphase : s.watcher.phase.Replays) :
      WatchMove S s a
        { s.watcher with phase := .waiting, wasConnected := s.watcher.connected } [.completed]

variable {S : Setup Bytes ρ} {s s' : Uplink Bytes} {bumps : List Bump}

/-- Every step of the uplink is one of these for the watcher. -/
theorem step_watchMove [Inhabited ρ] {a : UplinkAction Bytes} (h : s.step S a = some (s', bumps)) :
    ∃ es, s'.trace = s.trace ++ es ∧ WatchMove S s a s'.watcher es := by
  cases step_move h with
  | publish | refuse | hand | goLive | capped | disabled | disconnected | store | evict | reject
  | deliver | lose =>
    exact ⟨[], (List.append_nil _).symm, .keep _⟩
  | link up => exact ⟨_, rfl, .link up⟩
  | baseline hphase => exact ⟨_, rfl, .baseline hphase⟩
  | rise hphase hup hwas => exact ⟨_, rfl, .rise hphase hup hwas⟩
  | steady hphase hup hwas => exact ⟨_, rfl, .steady hphase hup hwas⟩
  | down hphase hdown => exact ⟨_, rfl, .down hphase hdown⟩
  | skip cmd topic rest hphase hencode => exact ⟨_, rfl, .skip cmd topic rest hphase hencode⟩
  | broadcast cmd topic rest bytes hphase => exact ⟨_, rfl, .broadcast cmd topic rest hphase⟩
  | broadcasted outcome rest hphase => exact ⟨_, rfl, .broadcasted outcome rest hphase⟩
  | enter hphase => exact ⟨_, rfl, .enter hphase⟩
  | count hphase | test hphase | replayed m hphase =>
    exact ⟨_, rfl, .advance _ _ (hphase ▸ trivial) trivial⟩
  | complete hphase =>
    refine ⟨_, rfl, .complete _ ?_⟩
    rcases hphase with ⟨hphase | hphase, -⟩ | ⟨hphase, -⟩ <;> exact hphase ▸ trivial
  | pop m rest hphase hbuffer => exact ⟨_, rfl, .replay m hphase (by simp [hbuffer])⟩
  | requeue m hphase | refuseRequeue m hphase => exact ⟨_, rfl, .complete _ (hphase ▸ trivial)⟩

end Uplink

end UnsBridge
