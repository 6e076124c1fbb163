import UnsBridge.Io.Bus
import UnsBridge.Io.Counters
import UnsBridge.Lib.Transition

/-!
# The uplink tasks

The device-to-site half of the relay as a transition system: one pump for each uplink subscription
and the connectivity watcher.  They share the uplink policy, with the replay buffer in it, and the
site connection.  A task step runs from one await to the next one; a section under the policy lock
is one step.  The link goes up and down, and others publish on the device bus, at any moment.

A pump receives a message, decides on it and calls `relay_up`, which admits it under the policy and
then publishes, buffers or drops it.  The watcher samples the link at every tick; it broadcasts on
the rising edge and replays what is buffered.

The state carries histories of what was handed to `relay_up`, what the site broker got and what was
discarded, and a trace of what the watcher did; no task reads them.
-/

namespace UnsBridge

open Transition

/-- A message that `decide` let up: the class of its pump, which copy of which publish it is, and
the topic and the stamped bytes that the tasks pass around. -/
structure Forwarded (Bytes : Type) where
  cls : UnsClass
  publish : ℕ
  subscription : ℕ
  topic : String
  bytes : Bytes

/-- Where the pump of an uplink subscription stands. -/
inductive UplinkPhase (Bytes : Type) where
  /-- Awaiting the next message. -/
  | idle
  /-- `relay_up` has been called and is about to lock the policy. -/
  | handed (m : Forwarded Bytes)
  /-- The site publish of an admitted message is in flight. -/
  | publishing (m : Forwarded Bytes)

/-- The message that a pump holds. -/
def UplinkPhase.load {Bytes : Type} : UplinkPhase Bytes → List (Forwarded Bytes)
  | .idle => []
  | .handed m | .publishing m => [m]

section Load

variable {Bytes : Type} (m : Forwarded Bytes)

@[simp] theorem UplinkPhase.load_idle : (idle : UplinkPhase Bytes).load = [] := rfl

@[simp] theorem UplinkPhase.load_handed : (handed m).load = [m] := rfl

@[simp] theorem UplinkPhase.load_publishing : (publishing m).load = [m] := rfl

end Load

/-- Where the connectivity watcher stands. -/
inductive WatcherPhase (Bytes : Type) where
  /-- Before the baseline sample. -/
  | starting
  /-- Awaiting the tick. -/
  | waiting
  /-- About to make the next one of the given rehydration broadcasts. -/
  | broadcast (rest : List (String × String))
  /-- A rehydration broadcast is in flight. -/
  | broadcasting (rest : List (String × String))
  /-- About to count the buffered events. -/
  | counting
  /-- About to check the link in the replay loop. -/
  | testing
  /-- About to pop a buffered event. -/
  | popping
  /-- The replay of a popped event is in flight. -/
  | replaying (m : Forwarded Bytes)

/-- The connectivity watcher with its two local variables. -/
structure Watcher (Bytes : Type) where
  phase : WatcherPhase Bytes
  wasConnected : Bool
  connected : Bool

/-- The popped event that the watcher holds outside the buffer. -/
def Watcher.held {Bytes : Type} (w : Watcher Bytes) : Option (Forwarded Bytes) :=
  match w.phase with
  | .replaying m => some m
  | _ => none

/-- What happens to the link, and what the watcher does. -/
inductive WatchEvent where
  | linkDown
  | linkUp
  | baseline
  | observed (connected : Bool)
  | broadcast (topic : String)
  | replay
  | completed
  deriving DecidableEq, Repr

/-- The state of the uplink tasks. -/
structure Uplink (Bytes : Type) where
  bus : Bus Bytes
  siteUp : Bool
  policy : UplinkPolicy (Forwarded Bytes)
  pumps : ℕ → UplinkPhase Bytes
  watcher : Watcher Bytes
  handed : List (Forwarded Bytes)
  delivered : List (Forwarded Bytes)
  discarded : List (Forwarded Bytes)
  trace : List WatchEvent

/-- A step of the uplink tasks or of their environment. -/
inductive UplinkAction (Bytes : Type) where
  /-- Someone publishes on the device bus. -/
  | publish (topic : String) (payload : Bytes)
  /-- The site link goes down or comes up. -/
  | link (up : Bool)
  /-- Pump `i` receives a message and decides on it. -/
  | recv (i : ℕ)
  /-- The locked section of `relay_up` in pump `i`. -/
  | relayUp (i : ℕ) (now : Instant)
  /-- The site publish of pump `i` returns. -/
  | published (i : ℕ) (outcome : Outcome)
  /-- The watcher goes on to its next await. -/
  | watch
  /-- A publish of the watcher returns. -/
  | watchPublished (outcome : Outcome)

namespace Uplink

variable {Bytes ρ : Type}

/-- The state when `RelayIo::start` has subscribed and spawned the tasks. -/
def start (S : Setup Bytes ρ) (siteUp : Bool) : Uplink Bytes where
  bus := .start
  siteUp
  policy := .fromConfig S.uplink
  pumps _ := .idle
  watcher := { phase := .starting, wasConnected := false, connected := false }
  handed := []
  delivered := []
  discarded := []
  trace := []

/-- The state after pump `i` has gone on. -/
def setPump (s : Uplink Bytes) (i : ℕ) (phase : UplinkPhase Bytes) : Uplink Bytes :=
  { s with pumps := Function.update s.pumps i phase }

/-- The state after a message has been discarded. -/
def discard (s : Uplink Bytes) (m : Forwarded Bytes) : Uplink Bytes :=
  { s with discarded := s.discarded ++ [m] }

/-- A step of `pump` in its uplink role, up to the call of `relay_up`. -/
def recv [Inhabited ρ] (S : Setup Bytes ρ) (s : Uplink Bytes) (i : ℕ) :
    Option (Uplink Bytes × List Bump) :=
  match s.pumps i, S.pumpClass i, s.bus.recv i with
  | .idle, some cls, some (c, bus) =>
    match S.engine.decide S.codec .uplink c.topic c.payload with
    | .forward bytes =>
      let m := { cls, publish := c.publish, subscription := i, topic := c.topic, bytes }
      some ({ s.setPump i (.handed m) with bus, handed := s.handed ++ [m] }, [])
    | .drop reason => some ({ s with bus }, [.drop reason])
  | _, _, _ => none

/-- The push into the replay buffer and `record_push`. -/
def push (s : Uplink Bytes) (m : Forwarded Bytes) : Uplink Bytes × List Bump :=
  match s.policy.pushEvt m with
  | (.stored true, policy) =>
    ({ s with policy, discarded := s.discarded ++ s.policy.evtBuffer.take 1 },
      [.evtBuffered, .evtBufferDropped])
  | (.stored false, policy) => ({ s with policy }, [.evtBuffered])
  | (.rejected, policy) => (discard { s with policy } m, [.droppedDisconnected m.cls])

/-- `UplinkGovernor::relay_up`, up to the site publish. -/
def relayUp (s : Uplink Bytes) (i : ℕ) (now : Instant) : Option (Uplink Bytes × List Bump) :=
  match s.pumps i with
  | .handed m =>
    let (verdict, policy) := s.policy.admitVerdict m.cls s.siteUp now
    let s := { s with policy }
    match verdict with
    | .forward => some (s.setPump i (.publishing m), [])
    | .buffer => some ((s.setPump i .idle).push m)
    | .dropDisabled => some ((s.setPump i .idle).discard m, [.droppedDisabled m.cls])
    | .dropDisconnected => some ((s.setPump i .idle).discard m, [.droppedDisconnected m.cls])
    | .dropRateCapped => some ((s.setPump i .idle).discard m, [.droppedRate m.cls])
  | _ => none

/-- `UplinkGovernor::relay_up`, after the site publish: a failed publish is the disconnect path. -/
def relayUpPublished (s : Uplink Bytes) (i : ℕ) (outcome : Outcome) :
    Option (Uplink Bytes × List Bump) :=
  match s.pumps i with
  | .publishing m =>
    let s := s.setPump i .idle
    match outcome with
    | .ok => some ({ s with delivered := s.delivered ++ [m] }, [.uplinked m.cls])
    | .failed =>
      if m.cls = .evt then some (s.push m)
      else some (s.discard m, [.droppedDisconnected m.cls])
  | _ => none

/-- The watcher goes on, leaving the given event. -/
def watchStep (s : Uplink Bytes) (phase : WatcherPhase Bytes) (event : List WatchEvent) :
    Uplink Bytes :=
  { s with watcher := { s.watcher with phase }, trace := s.trace ++ event }

/-- The end of an iteration of the watcher loop. -/
def completeIteration (s : Uplink Bytes) : Uplink Bytes :=
  { s with
    watcher := { s.watcher with phase := .waiting, wasConnected := s.watcher.connected }
    trace := s.trace ++ [.completed] }

/-- A step of the connectivity watcher up to its next await, with `publish_rehydration_bcast` and
`UplinkGovernor::replay_buffered_evt` in it. -/
def watch (S : Setup Bytes ρ) (s : Uplink Bytes) : Option (Uplink Bytes × List Bump) :=
  match s.watcher.phase with
  | .starting =>
    some ({ s with
      watcher := { s.watcher with phase := .waiting, wasConnected := s.siteUp }
      trace := s.trace ++ [.baseline] }, [])
  | .waiting =>
    let rising := s.siteUp && !s.watcher.wasConnected
    let s : Uplink Bytes := { s with
      watcher := { s.watcher with connected := s.siteUp }
      trace := s.trace ++ [.observed s.siteUp] }
    if rising then
      some (s.watchStep (.broadcast (REHYDRATION_CMDS.zip S.engine.rehydrationTopics)) [], [])
    else if s.siteUp then some (s.watchStep .counting [], [])
    else some (s.completeIteration, [])
  | .broadcast [] => some (s.watchStep .testing [], [])
  | .broadcast ((cmd, topic) :: rest) =>
    match S.codec.toVec (S.notification cmd) with
    | none => some (s.watchStep (.broadcast rest) [], [])
    | some _ => some (s.watchStep (.broadcasting rest) [.broadcast topic], [])
  | .counting =>
    if 0 < s.policy.bufferedEvt then some (s.watchStep .testing [], [])
    else some (s.completeIteration, [])
  | .testing =>
    if s.siteUp then some (s.watchStep .popping [], []) else some (s.completeIteration, [])
  | .popping =>
    match s.policy.popEvt with
    | (some m, policy) => some ({ s with policy }.watchStep (.replaying m) [.replay], [])
    | (none, policy) => some ({ s with policy }.completeIteration, [])
  | _ => none

/-- The watcher after a publish of its own has returned. -/
def watchPublished (s : Uplink Bytes) (outcome : Outcome) : Option (Uplink Bytes × List Bump) :=
  match s.watcher.phase with
  | .broadcasting rest => some (s.watchStep (.broadcast rest) [], [])
  | .replaying m =>
    match outcome with
    | .ok => some ({ s with delivered := s.delivered ++ [m] }.watchStep .testing [], [.evtReplayed])
    | .failed =>
      match s.policy.requeueEvtFront m with
      | (true, policy) => some ({ s with policy }.completeIteration, [])
      | (false, policy) =>
        some (({ s with policy }.discard m).completeIteration, [.evtBufferDropped])
  | _ => none

/-- One step, with the counters it bumps. -/
def step [Inhabited ρ] (S : Setup Bytes ρ) (s : Uplink Bytes) :
    UplinkAction Bytes → Option (Uplink Bytes × List Bump)
  | .publish topic payload =>
    some ({ s with bus := s.bus.publish S.deviceSubscriptions topic payload }, [])
  | .link up =>
    if up = s.siteUp then none
    else
      some ({ s with siteUp := up, trace := s.trace ++ [if up then .linkUp else .linkDown] }, [])
  | .recv i => s.recv S i
  | .relayUp i now => s.relayUp i now
  | .published i outcome => s.relayUpPublished i outcome
  | .watch => s.watch S
  | .watchPublished outcome => s.watchPublished outcome

/-- The uplink tasks as a transition system. -/
def system [Inhabited ρ] (S : Setup Bytes ρ) : System (Uplink Bytes) (UplinkAction Bytes) where
  init s := ∃ siteUp, s = start S siteUp
  step s a := (s.step S a).map Prod.fst

end Uplink

end UnsBridge
