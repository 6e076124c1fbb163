import UnsBridge.Io.DownlinkBooks
import UnsBridge.Io.UplinkBooks

/-!
# The running relay

`RelayIo` puts the uplink tasks, the downlink tasks and the shared counters together: a step of the
relay is a step of one half, and bumps the counters.  The halves share nothing else, since what one
of them publishes reaches the other only through the brokers, where everything that others publish
is a step of the environment already.  A run of the relay therefore projects to a run of each half.
-/

namespace UnsBridge

open Transition

variable {Bytes ρ : Type}

/-- `RelayIo`: the tasks of both directions and the counters. -/
structure RelayIo (Bytes : Type) where
  counters : RelayCounters
  up : Uplink Bytes
  down : Downlink Bytes

/-- A step of one of the halves. -/
inductive RelayIoAction (Bytes : Type) where
  | up (a : UplinkAction Bytes)
  | down (a : DownlinkAction Bytes)

/-- A task of the relay. -/
inductive RelayTask where
  | uplinkPump (i : ℕ)
  | watcher
  | downlinkPump (i : ℕ)
  | sweeper
  | replyPump (k : ℕ)
  deriving DecidableEq, Repr

/-- The task that takes a step of the uplink half, `none` where it is the environment. -/
def UplinkAction.task : UplinkAction Bytes → Option RelayTask
  | .publish _ _ | .link _ => none
  | .recv i | .relayUp i _ | .published i _ => some (.uplinkPump i)
  | .watch | .watchPublished _ => some .watcher

/-- The task that takes a step of the downlink half, `none` where it is the environment. -/
def DownlinkAction.task : DownlinkAction Bytes → Option RelayTask
  | .publish _ _ | .reply _ _ => none
  | .recv i | .rewriteDownlink i _ _ | .expired i _ | .subscribed i _ | .check i | .dropped i _
  | .published i _ => some (.downlinkPump i)
  | .sweep _ | .swept _ => some .sweeper
  | .replyRecv k | .replyClosed k | .handleReply k | .replyPublished k _ | .replySettled k _ =>
    some (.replyPump k)

/-- The task that takes a step. -/
def RelayIoAction.task : RelayIoAction Bytes → Option RelayTask
  | .up a => a.task
  | .down a => a.task

namespace RelayIo

/-- The state when `RelayIo::start` has returned; the link may have changed since. -/
def start (S : Setup Bytes ρ) (siteUp : Bool) : RelayIo Bytes where
  counters := {}
  up := .start S siteUp
  down := .start S

variable [Inhabited ρ]

/-- One step. -/
def step (S : Setup Bytes ρ) (s : RelayIo Bytes) : RelayIoAction Bytes → Option (RelayIo Bytes)
  | .up a => (s.up.step S a).map fun (up, bumps) =>
    { s with up, counters := s.counters.bumpAll bumps }
  | .down a => (s.down.step S a).map fun (down, bumps) =>
    { s with down, counters := s.counters.bumpAll bumps }

/-- The relay as a transition system. -/
def system (S : Setup Bytes ρ) : System (RelayIo Bytes) (RelayIoAction Bytes) where
  init s := ∃ siteUp, s = start S siteUp
  step s a := s.step S a

variable {S : Setup Bytes ρ} {s s' : RelayIo Bytes}

/-- A step of the uplink half. -/
theorem step_up {a : UplinkAction Bytes} (h : s.step S (.up a) = some s') :
    ∃ bumps, s.up.step S a = some (s'.up, bumps) ∧ s'.down = s.down ∧
      s'.counters = s.counters.bumpAll bumps := by
  obtain ⟨⟨up, bumps⟩, hstep, rfl⟩ := Option.map_eq_some_iff.mp h
  exact ⟨bumps, hstep, rfl, rfl⟩

/-- A step of the downlink half. -/
theorem step_down {a : DownlinkAction Bytes} (h : s.step S (.down a) = some s') :
    ∃ bumps, s.down.step S a = some (s'.down, bumps) ∧ s'.up = s.up ∧
      s'.counters = s.counters.bumpAll bumps := by
  obtain ⟨⟨down, bumps⟩, hstep, rfl⟩ := Option.map_eq_some_iff.mp h
  exact ⟨bumps, hstep, rfl, rfl⟩

/-- A guard on the steps of the uplink half. -/
def onUp (R : Uplink Bytes → UplinkAction Bytes → Prop) (s : RelayIo Bytes)
    (a : RelayIoAction Bytes) : Prop :=
  ∀ b, a = .up b → R s.up b

/-- A guard on the steps of the downlink half. -/
def onDown (R : Downlink Bytes → DownlinkAction Bytes → Prop) (s : RelayIo Bytes)
    (a : RelayIoAction Bytes) : Prop :=
  ∀ b, a = .down b → R s.down b

/-- A run of the relay projects to a run of its uplink half. -/
theorem reachable_up {R : Uplink Bytes → UplinkAction Bytes → Prop}
    (h : (system S).Reachable (onUp R) s) : (Uplink.system S).Reachable R s.up := by
  apply h.map RelayIo.up (fun a => match a with | .up b => some b | .down _ => none)
  · rintro s ⟨siteUp, rfl⟩
    exact ⟨siteUp, rfl⟩
  · intro s a s' hR hstep
    cases a with
    | up b =>
      obtain ⟨bumps, hs, -, -⟩ := step_up hstep
      exact ⟨hR b rfl, Option.map_eq_some_iff.mpr ⟨_, hs, rfl⟩⟩
    | down b =>
      obtain ⟨bumps, -, hup, -⟩ := step_down hstep
      exact hup

/-- A run of the relay projects to a run of its downlink half. -/
theorem reachable_down {R : Downlink Bytes → DownlinkAction Bytes → Prop}
    (h : (system S).Reachable (onDown R) s) : (Downlink.system S).Reachable R s.down := by
  apply h.map RelayIo.down (fun a => match a with | .up _ => none | .down b => some b)
  · rintro s ⟨siteUp, rfl⟩
    rfl
  · intro s a s' hR hstep
    cases a with
    | up b =>
      obtain ⟨bumps, -, hdown, -⟩ := step_up hstep
      exact hdown
    | down b =>
      obtain ⟨bumps, hs, -, -⟩ := step_down hstep
      exact ⟨hR b rfl, Option.map_eq_some_iff.mpr ⟨_, hs, rfl⟩⟩

end RelayIo

end UnsBridge
