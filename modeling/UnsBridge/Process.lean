import UnsBridge.FailedStart
import UnsBridge.ReplyRouting
import UnsBridge.Io.UplinkWatch

/-!
# The life of the process

`main` connects to the site broker, again and again until it succeeds, starts the relay, waits for
the shutdown signal and shuts the relay down; a signal that comes while it still connects, or a
start that fails, ends it as well.  `Process` puts the start and the shutdown of the relay together
to one transition system, from the first connect to the end of `main`.

While the relay starts, a publish reaches only the subscriptions that have been made, and while it
stops, its tasks are cut.  `Uplink.Kept` and `Downlink.Kept` are what an invariant of one half of
the relay has to stand for that; it then holds from the start of the relay to the end of the process
(`Process.uplink_invariant`, `Process.downlink_invariant`).
-/

namespace UnsBridge

open Transition

variable {Bytes ρ : Type}

/-- Where the process stands. -/
inductive Process (Bytes : Type) where
  /-- In `connect_site_with_retry`. -/
  | connecting
  /-- In `RelayIo::start`, or back from one that has failed. -/
  | starting (s : Starting Bytes)
  /-- The relay runs; its shutdown may be on its way. -/
  | running (s : Stopping Bytes)
  /-- `main` has returned, and leaves the relay as it is if there was one. -/
  | exited (io : Option (RelayIo Bytes))

/-- A step of the process. -/
inductive ProcessAction (Bytes : Type) where
  /-- An attempt to connect ends; the link may have changed until the relay looks. -/
  | connect (outcome : Outcome) (siteUp : Bool)
  /-- The shutdown signal ends the attempts to connect. -/
  | interrupt
  /-- A step of the start of the relay. -/
  | start (a : StartingAction Bytes)
  /-- `RelayIo::start` returns. -/
  | started
  /-- A step of the running relay, or of its shutdown, which the shutdown signal calls. -/
  | run (a : StoppingAction Bytes)
  /-- `RelayIo::shutdown` returns. -/
  | finish

namespace Process

/-- One step. -/
def step [Inhabited ρ] (S : Setup Bytes ρ) (p : Process Bytes) :
    ProcessAction Bytes → Option (Process Bytes)
  | .connect outcome siteUp =>
    match p, outcome with
    | .connecting, .ok =>
      some (.starting { io := .start S siteUp, established := 0, failed := none })
    | .connecting, .failed => some .connecting
    | _, _ => none
  | .interrupt =>
    match p with
    | .connecting => some (.exited none)
    | _ => none
  | .start a =>
    match p with
    | .starting s => (s.step S a).map .starting
    | _ => none
  | .started =>
    match p with
    | .starting s =>
      if s.failed.isSome then some (.exited (some s.io))
      else if s.established = Starting.calls S then
        some (.running { io := s.io, called := false, ended := [] })
      else none
    | _ => none
  | .run a =>
    match p with
    | .running s => (s.step S a).map .running
    | _ => none
  | .finish =>
    match p with
    | .running s => if s.called ∧ s.AllEnded S then some (.exited (some s.io)) else none
    | _ => none

/-- The process as a transition system. -/
def system [Inhabited ρ] (S : Setup Bytes ρ) : System (Process Bytes) (ProcessAction Bytes) where
  init p := p = .connecting
  step p a := p.step S a

/-- The relay, once the site broker has been connected. -/
def io : Process Bytes → Option (RelayIo Bytes)
  | .connecting => none
  | .starting s => some s.io
  | .running s => some s.io
  | .exited io => io

end Process

/-! ### Partial publishes -/

/-- A publish to the first subscriptions adds to each subscription what a publish to all of them
adds, or nothing. -/
theorem Bus.log_publish_take (subs : List Subscription) (b : Bus Bytes) (n : ℕ) (topic : String)
    (payload : Bytes) (i : ℕ) :
    (b.publish (subs.take n) topic payload).log i = (b.publish subs topic payload).log i ∨
      (b.publish (subs.take n) topic payload).log i = b.log i := by
  by_cases hi : i < n
  · refine Or.inl ?_
    simp [log, publish, List.getElem?_take, hi]
  · refine Or.inr ?_
    simp [log, publish, List.getElem?_take, hi]

/-- A publish that reaches only the first subscriptions keeps a connection sound. -/
theorem Bus.Sound.publish_take {subs : List Subscription} {b : Bus Bytes} (h : Sound subs b)
    (n : ℕ) (topic : String) (payload : Bytes) :
    Sound subs (b.publish (subs.take n) topic payload) := by
  have hall := h.publish topic payload
  constructor
  · intro i c hc
    rcases log_publish_take subs b n topic payload i with hlog | hlog
    · exact hall.faithful i c (hlog ▸ hc)
    · refine hall.faithful i c ?_
      rcases log_publish subs b topic payload i with hsame | ⟨-, hmore⟩
      · exact hsame ▸ hlog ▸ hc
      · exact hmore ▸ List.mem_append_left _ (hlog ▸ hc)
  · intro i
    rcases log_publish_take subs b n topic payload i with hlog | hlog
    · exact hlog ▸ hall.ordered i
    · exact hlog ▸ h.ordered i

/-! ### What a step of the process does to the relay -/

/-- What a step of the process does to the relay. -/
inductive LifeMove [Inhabited ρ] (S : Setup Bytes ρ) :
    Option (RelayIo Bytes) → Option (RelayIo Bytes) → Prop
  /-- Nothing. -/
  | keep (io : Option (RelayIo Bytes)) : LifeMove S io io
  /-- The start of the relay begins. -/
  | begin (siteUp : Bool) : LifeMove S none (some (.start S siteUp))
  /-- A step of the relay. -/
  | step (a : RelayIoAction Bytes) (io io' : RelayIo Bytes) (hstep : io.step S a = some io') :
      LifeMove S (some io) (some io')
  /-- A publish on the device bus, of which there are only the first subscriptions. -/
  | device (io : RelayIo Bytes) (n : ℕ) (topic : String) (payload : Bytes) :
      LifeMove S (some io) (some { io with up := { io.up with
        bus := io.up.bus.publish (S.deviceSubscriptions.take n) topic payload } })
  /-- A publish on the site broker, of which there are only the first subscriptions. -/
  | site (io : RelayIo Bytes) (n : ℕ) (topic : String) (payload : Bytes) :
      LifeMove S (some io) (some { io with down := { io.down with
        bus := io.down.bus.publish (S.siteSubscriptions.take n) topic payload } })
  /-- A task is cut. -/
  | cut (io : RelayIo Bytes) (task : RelayTask) (effect : Bool) :
      LifeMove S (some io) (some { io with down := io.down.cut task effect })

/-- A step of the start of the relay is one of these. -/
theorem Starting.step_life [Inhabited ρ] {S : Setup Bytes ρ} {s s' : Starting Bytes}
    {a : StartingAction Bytes} (h : s.step S a = some s') :
    LifeMove S (some s.io) (some s'.io) := by
  cases a with
  | subscribed outcome =>
    simp only [step] at h
    split at h
    · cases outcome <;> cases h <;> exact .keep _
    · cases h
  | run a =>
    obtain ⟨-, io, hrun, rfl⟩ := run_of_step h
    unfold runIo at hrun
    split at hrun
    · cases hrun
      exact .device _ _ _ _
    · cases hrun
      exact .site _ _ _ _
    · exact .step _ _ _ hrun

/-- A step of the running relay is one of these. -/
theorem Stopping.step_life [Inhabited ρ] {S : Setup Bytes ρ} {s s' : Stopping Bytes}
    {a : StoppingAction Bytes} (h : s.step S a = some s') :
    LifeMove S (some s.io) (some s'.io) := by
  cases a with
  | run a =>
    simp only [step] at h
    split at h
    · cases h
    · obtain ⟨io, hrun, rfl⟩ := Option.map_eq_some_iff.mp h
      exact .step _ _ _ hrun
  | shutdown =>
    simp only [step] at h
    split at h <;> cases h
    exact .keep _
  | cancel task effect =>
    simp only [step] at h
    split at h <;> cases h
    exact .cut _ _ _

/-- A step of the process is one of these. -/
theorem Process.step_life [Inhabited ρ] {S : Setup Bytes ρ} {p p' : Process Bytes}
    {a : ProcessAction Bytes} (h : p.step S a = some p') : LifeMove S p.io p'.io := by
  cases a with
  | connect outcome siteUp =>
    simp only [step] at h
    split at h <;> cases h
    · exact .begin siteUp
    · exact .keep _
  | interrupt =>
    simp only [step] at h
    split at h <;> cases h
    exact .keep _
  | start a =>
    simp only [step] at h
    split at h
    · obtain ⟨s', hs, rfl⟩ := Option.map_eq_some_iff.mp h
      exact Starting.step_life hs
    · cases h
  | started =>
    simp only [step] at h
    split at h
    · split_ifs at h <;> cases h <;> exact .keep _
    · cases h
  | run a =>
    simp only [step] at h
    split at h
    · obtain ⟨s', hs, rfl⟩ := Option.map_eq_some_iff.mp h
      exact Stopping.step_life hs
    · cases h
  | finish =>
    simp only [step] at h
    split at h
    · split_ifs at h
      cases h
      exact .keep _
    · cases h

/-! ### Invariants of a life -/

/-- An invariant of the uplink half: it holds at the start, and is kept by every step and by a
publish that reaches the first subscriptions only. -/
structure Uplink.Kept [Inhabited ρ] (S : Setup Bytes ρ) (I : Uplink Bytes → Prop) : Prop where
  start : ∀ siteUp, I (.start S siteUp)
  step : ∀ s a s' bumps, I s → s.step S a = some (s', bumps) → I s'
  publish : ∀ (s : Uplink Bytes) n topic payload, I s →
    I { s with bus := s.bus.publish (S.deviceSubscriptions.take n) topic payload }

/-- An invariant of the downlink half: it holds at the start, and is kept by every step, by a
publish that reaches the first subscriptions only, and where the unsubscribe of a pump is cut. -/
structure Downlink.Kept [Inhabited ρ] (S : Setup Bytes ρ) (I : Downlink Bytes → Prop) : Prop where
  start : I (.start S)
  step : ∀ s a s' bumps, I s → s.step S a = some (s', bumps) → I s'
  publish : ∀ (s : Downlink Bytes) n topic payload, I s →
    I { s with bus := s.bus.publish (S.siteSubscriptions.take n) topic payload }
  cut : ∀ (s : Downlink Bytes) i m t, I s → s.pumps i = .dropping m t →
    I ((s.unsubscribe t .ok).setPump i (.publishing m))

/-- The books of the uplink are right from the start of the relay to the end of the process. -/
theorem Uplink.kept_books [Inhabited ρ] (S : Setup Bytes ρ) : Kept S (Books S) where
  start := books_start S
  step _ _ _ _ h hstep := (h.step hstep).1
  publish _ n topic payload h :=
    ⟨⟨h.wf.policy, h.wf.bus.publish_take n topic payload⟩, h.placed, h.places⟩

/-- The books of the downlink are right from the start of the relay to the end of the process. -/
theorem Downlink.kept_books [Inhabited ρ] (S : Setup Bytes ρ) : Kept S (Books S) where
  start := books_start S
  step _ _ _ _ h hstep := h.move (step_move hstep)
  publish _ n topic payload h := ⟨h.bus.publish_take n topic payload, ⟨h.commanded.subscription,
    h.commanded.sublist⟩, ⟨h.recorded.subscription, h.recorded.sublist⟩, h.idle, h.absent⟩
  cut _ _ _ _ h hpump := h.giveUp hpump

namespace Process

variable [Inhabited ρ] {S : Setup Bytes ρ}

/-- An invariant of the uplink half holds from the start of the relay to the end of the process. -/
theorem uplink_invariant {I : Uplink Bytes → Prop} (hI : Uplink.Kept S I) {p : Process Bytes}
    (h : (system S).Reachable System.anyStep p) : ∀ io, p.io = some io → I io.up := by
  apply h.invariant
  · rintro p rfl io hio
    cases hio
  · intro p a p' _ ih _ hstep io hio
    have hlife := step_life hstep
    rw [hio] at hlife
    generalize p.io = before at ih hlife
    cases hlife with
    | keep => exact ih io rfl
    | begin siteUp => exact hI.start siteUp
    | step a io₀ _ hstep =>
      cases a with
      | up b =>
        obtain ⟨bumps, hs, -, -⟩ := RelayIo.step_up hstep
        exact hI.step _ _ _ _ (ih io₀ rfl) hs
      | down b =>
        obtain ⟨bumps, -, hup, -⟩ := RelayIo.step_down hstep
        exact hup ▸ ih io₀ rfl
    | device io₀ n topic payload => exact hI.publish _ _ _ _ (ih io₀ rfl)
    | site io₀ n topic payload => exact ih io₀ rfl
    | cut io₀ task effect => exact ih io₀ rfl

/-- An invariant of the downlink half holds from the start of the relay to the end of the
process. -/
theorem downlink_invariant {J : Downlink Bytes → Prop} (hJ : Downlink.Kept S J) {p : Process Bytes}
    (h : (system S).Reachable System.anyStep p) : ∀ io, p.io = some io → J io.down := by
  apply h.invariant
  · rintro p rfl io hio
    cases hio
  · intro p a p' _ ih _ hstep io hio
    have hlife := step_life hstep
    rw [hio] at hlife
    generalize p.io = before at ih hlife
    cases hlife with
    | keep => exact ih io rfl
    | begin siteUp => exact hJ.start
    | step a io₀ _ hstep =>
      cases a with
      | up b =>
        obtain ⟨bumps, -, hdown, -⟩ := RelayIo.step_up hstep
        exact hdown ▸ ih io₀ rfl
      | down b =>
        obtain ⟨bumps, hs, -, -⟩ := RelayIo.step_down hstep
        exact hJ.step _ _ _ _ (ih io₀ rfl) hs
    | device io₀ n topic payload => exact ih io₀ rfl
    | site io₀ n topic payload => exact hJ.publish _ _ _ _ (ih io₀ rfl)
    | cut io₀ task effect =>
      have hJ₀ := ih io₀ rfl
      rcases Downlink.cut_cases S io₀.down task effect with hcut | ⟨a, bumps, hstep⟩ |
        ⟨i, m, t, hpump, hcut⟩
      · simpa [hcut] using hJ₀
      · exact hJ.step _ _ _ _ hJ₀ hstep
      · simpa [hcut] using hJ.cut io₀.down i m t hJ₀ hpump

/-! ### A sample life -/

/-- A `state` message is relayed. -/
def stateRun : List (RelayIoAction (Message Unit)) :=
  [.up (.publish "ecv1/gw-01/adapter/main/state" (.sample none)), .up (.recv 0),
    .up (.relayUp 0 0), .up (.published 0 .ok)]

/-- The process connects at the second attempt, and starts the relay of device `gw-01`. -/
def startRun : List (ProcessAction (Message Unit)) :=
  [.connect .failed false, .connect .ok true] ++
    List.replicate (Starting.calls Setup.gw01) (.start (.subscribed .ok)) ++ [.started]

/-- The relay takes the given steps. -/
def relayRun (as : List (RelayIoAction (Message Unit))) : List (ProcessAction (Message Unit)) :=
  as.map fun a => .run (.run a)

/-- The process starts, relays a `state` message, a command with a reply path and its reply, and
shuts down. -/
def lifeRun : List (ProcessAction (Message Unit)) :=
  startRun ++ relayRun (stateRun ++ replyRun) ++ (Stopping.shutdownRun.map .run ++ [.finish])

/-- What is to be seen of the relay at the end of a life. -/
def summary (p : Process (Message Unit)) : Option (ℕ × List String × ℕ) :=
  p.io.map fun io => (io.up.delivered.length, io.down.log.filterMap DownlinkEvent.siteTopic,
    (io.down.log.filterMap DownlinkEvent.commandedCopy).length)

/-- The sample run goes through. -/
theorem exists_lifeRun : ∃ p io, (system Setup.gw01).Reachable System.anyStep p ∧
    p.io = some io ∧ io.up.delivered.length = 1 ∧
    io.down.log.filterMap DownlinkEvent.siteTopic = ["site/replies/7"] ∧
    (io.down.log.filterMap DownlinkEvent.commandedCopy).length = 1 := by
  obtain ⟨p, hp, hobs⟩ := System.exists_reachable_of_exec (M := system Setup.gw01)
    (fun _ _ => true) (fun _ _ _ => trivial) (.init rfl) lifeRun summary
    (x := some (1, ["site/replies/7"], 1)) (by decide +kernel)
  obtain ⟨io, hio, hsummary⟩ := Option.map_eq_some_iff.mp hobs
  obtain ⟨hdelivered, hrest⟩ := Prod.mk.inj hsummary
  exact ⟨p, io, hp, hio, hdelivered, Prod.mk.inj hrest⟩

end Process

end UnsBridge
