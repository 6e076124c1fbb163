import UnsBridge.Capacity

/-!
# The end of a shutdown, call by call

When all tasks have ended, `RelayIo::shutdown` awaits one unsubscribe after the other: of the uplink
filters, of the downlink filters, and of the topics that are drained from the correlation map.  In
`Process` this is one step.  `Exiting` is the process with these calls one by one, while messages
still arrive at the brokers.

`shutdown_calls_finish` says that the two agree: without the calls the runs are those of the
process, and the calls do what `Stopping.finish` says.  `Exiting.calls_le` says how many there are.
-/

namespace UnsBridge

open Transition

variable {Bytes ρ : Type}

/-- The end of a shutdown: what is subscribed, and the unsubscribes that are still to be made, of
uplink filters, of downlink filters and of pending reply topics. -/
structure Closing (Bytes : Type) where
  relay : Stopping Bytes
  subscribed : BrokerSubscriptions
  uplink : List String
  downlink : List String
  pending : List String

namespace Closing

/-- All tasks have ended.  None is left that could change the map until it is drained. -/
def start (S : Setup Bytes ρ) (s : Stopping Bytes) : Closing Bytes where
  relay := s
  subscribed := s.subscribed S
  uplink := S.engine.uplinkSubscriptions.map Prod.snd
  downlink := S.engine.downlinkFilters
  pending := s.io.down.correlator.drain.1

/-- The number of calls that are left. -/
def calls (c : Closing Bytes) : ℕ := c.uplink.length + c.downlink.length + c.pending.length

/-- What is left subscribed on a broker after an unsubscribe. -/
def remaining (topic : String) (outcome : SubOutcome) (subscribed : List String) : List String :=
  if outcome.effect then subscribed.filter fun t => t ≠ topic else subscribed

/-- The unsubscribe that is under way returns; a failure is logged, and the next one is made. -/
def unsubscribed (c : Closing Bytes) (outcome : SubOutcome) : Option (Closing Bytes) :=
  match c.uplink, c.downlink, c.pending with
  | filter :: rest, _, _ =>
    some { c with
      uplink := rest
      subscribed.device := remaining filter outcome c.subscribed.device }
  | [], filter :: rest, _ =>
    some { c with
      downlink := rest
      subscribed.site := remaining filter outcome c.subscribed.site }
  | [], [], topic :: rest =>
    some { c with
      pending := rest
      subscribed.device := remaining topic outcome c.subscribed.device }
  | [], [], [] => none

end Closing

/-- The process, with the end of its shutdown call by call. -/
inductive Exiting (Bytes : Type) where
  | process (p : Process Bytes)
  | closing (c : Closing Bytes)

/-- A step of the process with the end of its shutdown. -/
inductive ExitingAction (Bytes : Type) where
  /-- A step of the process; it finishes when there are no calls left. -/
  | process (a : ProcessAction Bytes)
  /-- The last task has ended. -/
  | close
  /-- An unsubscribe of the shutdown returns. -/
  | unsubscribed (outcome : SubOutcome)

namespace Exiting

/-- One step.  Once the tasks have ended, only the environment takes steps of the relay. -/
def step [Inhabited ρ] (S : Setup Bytes ρ) : Exiting Bytes → ExitingAction Bytes →
    Option (Exiting Bytes)
  | .process _, .process .finish => none
  | .process p, .process a => (p.step S a).map .process
  | .process (.running s), .close =>
    if s.called ∧ s.AllEnded S then some (.closing (.start S s)) else none
  | .closing c, .process (.run (.run a)) =>
    if a.task.isNone then (c.relay.step S (.run a)).map fun relay => .closing { c with relay }
    else none
  | .closing c, .unsubscribed outcome => (c.unsubscribed outcome).map .closing
  | .closing c, .process .finish =>
    if c.calls = 0 then some (.process (.exited (some c.relay.io))) else none
  | _, _ => none

/-- The process with the end of its shutdown as a transition system. -/
def system [Inhabited ρ] (S : Setup Bytes ρ) : System (Exiting Bytes) (ExitingAction Bytes) where
  init e := e = .process .connecting
  step e a := e.step S a

/-- The process, without the calls at the end of its shutdown. -/
def hidden : Exiting Bytes → Process Bytes
  | .process p => p
  | .closing c => .running c.relay

end Exiting

/-! ### What a step does -/

/-- What an unsubscribe at the end of a shutdown does. -/
inductive Closing.Call (c : Closing Bytes) (outcome : SubOutcome) : Closing Bytes → Prop
  /-- An uplink filter. -/
  | uplink (filter : String) (rest : List String) (huplink : c.uplink = filter :: rest) :
      Call c outcome { c with
        uplink := rest
        subscribed.device := remaining filter outcome c.subscribed.device }
  /-- A downlink filter. -/
  | downlink (filter : String) (rest : List String) (huplink : c.uplink = [])
      (hdownlink : c.downlink = filter :: rest) :
      Call c outcome { c with
        downlink := rest
        subscribed.site := remaining filter outcome c.subscribed.site }
  /-- A pending reply topic. -/
  | pending (topic : String) (rest : List String) (huplink : c.uplink = [])
      (hdownlink : c.downlink = []) (hpending : c.pending = topic :: rest) :
      Call c outcome { c with
        pending := rest
        subscribed.device := remaining topic outcome c.subscribed.device }

/-- An unsubscribe does nothing else. -/
theorem Closing.unsubscribed_call {c c' : Closing Bytes} {outcome : SubOutcome}
    (h : c.unsubscribed outcome = some c') : c.Call outcome c' := by
  unfold unsubscribed at h
  split at h
  · rename_i filter rest huplink
    cases h
    exact .uplink filter rest huplink
  · rename_i filter rest huplink hdownlink
    cases h
    exact .downlink filter rest huplink hdownlink
  · rename_i topic rest huplink hdownlink hpending
    cases h
    exact .pending topic rest huplink hdownlink hpending
  · cases h

/-- It is one call less to make. -/
theorem Closing.Call.calls {c c' : Closing Bytes} {outcome : SubOutcome} (h : c.Call outcome c') :
    c'.calls + 1 = c.calls := by
  cases h with
  | uplink filter rest huplink =>
    simp only [Closing.calls, huplink, List.length_cons]
    omega
  | downlink filter rest huplink hdownlink =>
    simp only [Closing.calls, hdownlink, List.length_cons]
    omega
  | pending topic rest huplink hdownlink hpending =>
    simp only [Closing.calls, hpending, List.length_cons]
    omega

/-- As long as calls are left, the next one may return with any outcome. -/
theorem Closing.unsubscribed_isSome {c : Closing Bytes} (h : c.calls ≠ 0) (outcome : SubOutcome) :
    (c.unsubscribed outcome).isSome = true := by
  unfold unsubscribed
  split
  · rfl
  · rfl
  · rfl
  · rename_i huplink hdownlink hpending
    simp [calls, huplink, hdownlink, hpending] at h

/-- A step of the environment alone: it starts no task, and leaves the map and the subscriptions
as they are. -/
theorem RelayIo.step_environment [Inhabited ρ] {S : Setup Bytes ρ} {io io' : RelayIo Bytes}
    {a : RelayIoAction Bytes} (htask : a.task = none) (h : io.step S a = some io') :
    io'.down.nextReplyPump = io.down.nextReplyPump ∧ io'.down.correlator = io.down.correlator ∧
      io'.down.subscriptions = io.down.subscriptions := by
  cases a with
  | up a =>
    obtain ⟨bumps, -, hdown, -⟩ := step_up h
    rw [hdown]
    exact ⟨rfl, rfl, rfl⟩
  | down a =>
    obtain ⟨bumps, hdown, -, -⟩ := step_down h
    have htask' : a.task = none := htask
    generalize io'.down = down at hdown ⊢
    cases Downlink.step_move hdown with
    | publish | reply => exact ⟨rfl, rfl, rfl⟩
    | _ => cases htask'

namespace Exiting

variable [Inhabited ρ] {S : Setup Bytes ρ} {e e' : Exiting Bytes} {c : Closing Bytes}

/-- The steps of the process with the end of its shutdown. -/
inductive Move (S : Setup Bytes ρ) : Exiting Bytes → ExitingAction Bytes → Exiting Bytes → Prop
  /-- A step of the process before the end of its shutdown. -/
  | process (p p' : Process Bytes) (a : ProcessAction Bytes) (ha : a ≠ .finish)
      (hstep : p.step S a = some p') : Move S (.process p) (.process a) (.process p')
  /-- The last task has ended. -/
  | close (s : Stopping Bytes) (hcalled : s.called = true) (hended : s.AllEnded S) :
      Move S (.process (.running s)) .close (.closing (.start S s))
  /-- A step of the environment. -/
  | arrive (c : Closing Bytes) (a : RelayIoAction Bytes) (relay : Stopping Bytes)
      (htask : a.task = none) (hstep : c.relay.step S (.run a) = some relay) :
      Move S (.closing c) (.process (.run (.run a))) (.closing { c with relay })
  /-- An unsubscribe returns. -/
  | call (c c' : Closing Bytes) (outcome : SubOutcome) (hcall : c.Call outcome c') :
      Move S (.closing c) (.unsubscribed outcome) (.closing c')
  /-- The shutdown returns. -/
  | finish (c : Closing Bytes) (hdone : c.calls = 0) :
      Move S (.closing c) (.process .finish) (.process (.exited (some c.relay.io)))

/-- A step of the process other than the last one. -/
theorem step_process {p : Process Bytes} {a : ProcessAction Bytes} (ha : a ≠ .finish) :
    step S (.process p) (.process a) = (p.step S a).map .process := by
  cases a with
  | finish => exact absurd rfl ha
  | _ => rfl

/-- There are no other steps. -/
theorem step_move {a : ExitingAction Bytes} (h : e.step S a = some e') : Move S e a e' := by
  cases e with
  | process p =>
    cases a with
    | process a =>
      cases a with
      | finish => cases h
      | _ =>
        obtain ⟨p', hstep, rfl⟩ := Option.map_eq_some_iff.mp h
        exact .process p p' _ (by simp) hstep
    | close =>
      cases p with
      | running s =>
        simp only [step] at h
        split_ifs at h with hended
        cases h
        exact .close s hended.1 hended.2
      | _ => cases h
    | unsubscribed outcome => cases h
  | closing c =>
    cases a with
    | process a =>
      cases a with
      | finish =>
        simp only [step] at h
        split_ifs at h with hdone
        cases h
        exact .finish c hdone
      | run r =>
        cases r with
        | run a =>
          simp only [step] at h
          split_ifs at h with htask
          obtain ⟨relay, hstep, rfl⟩ := Option.map_eq_some_iff.mp h
          exact .arrive c a relay (by simpa using htask) hstep
        | _ => cases h
      | _ => cases h
    | close => cases h
    | unsubscribed outcome =>
      obtain ⟨c', hcall, rfl⟩ := Option.map_eq_some_iff.mp h
      exact .call c c' outcome (Closing.unsubscribed_call hcall)

/-- A step of the environment while the shutdown ends. -/
theorem exists_io_of_arrive {relay relay' : Stopping Bytes} {a : RelayIoAction Bytes}
    (htask : a.task = none) (h : relay.step S (.run a) = some relay') :
    ∃ io, relay.io.step S a = some io ∧ relay' = { relay with io } := by
  simp only [Stopping.step, Stopping.hasEnded, htask] at h
  obtain ⟨io, hio, rfl⟩ := Option.map_eq_some_iff.mp h
  exact ⟨io, hio, rfl⟩

/-- While the shutdown ends, all tasks have ended. -/
theorem ended {P : Exiting Bytes → ExitingAction Bytes → Prop} (h : (system S).Reachable P e) :
    ∀ c, e = .closing c → c.relay.called = true ∧ c.relay.AllEnded S := by
  apply h.invariant (I := fun e => ∀ c, e = .closing c →
    c.relay.called = true ∧ c.relay.AllEnded S)
  · rintro e rfl c hc
    cases hc
  · rintro e a e' - hI - hstep c rfl
    cases step_move hstep with
    | close s hcalled hended => exact ⟨hcalled, hended⟩
    | arrive c a relay htask harrive =>
      obtain ⟨hcalled, hended⟩ := hI c rfl
      obtain ⟨io, hio, rfl⟩ := exists_io_of_arrive htask harrive
      have hnext := (RelayIo.step_environment htask hio).1
      refine ⟨hcalled, fun task hmem => hended task ?_⟩
      simpa [Stopping.replyTasks, hnext] using hmem
    | call c c' outcome hcall => cases hcall <;> exact hI c rfl

/-- Without the calls at the end of its shutdown, it runs as the process does. -/
theorem reachable_process {P : Exiting Bytes → ExitingAction Bytes → Prop}
    (h : (system S).Reachable P e) : (Process.system S).Reachable System.anyStep e.hidden := by
  apply h.invariant (I := fun e => (Process.system S).Reachable System.anyStep e.hidden)
  · rintro e rfl
    exact .init rfl
  · rintro e a e' hreach hI - hstep
    cases step_move hstep with
    | process p p' a ha hprocess => exact hI.step trivial hprocess
    | close => exact hI
    | arrive c a relay htask harrive =>
      exact hI.step (a := .run (.run a)) trivial (Option.map_eq_some_iff.mpr ⟨relay, harrive, rfl⟩)
    | call c c' outcome hcall => cases hcall <;> exact hI
    | finish c hdone =>
      exact hI.step (a := .finish) trivial (if_pos (ended hreach c rfl))

/-- The calls can be made one after the other, until none is left. -/
theorem exists_done (h : (system S).Reachable System.anyStep (.closing c)) :
    ∃ c' : Closing Bytes, (system S).Reachable System.anyStep (.closing c') ∧
      c'.relay = c.relay ∧ c'.calls = 0 := by
  generalize hn : c.calls = n
  induction n generalizing c with
  | zero => exact ⟨c, h, rfl, hn⟩
  | succ n ih =>
    have hleft : c.calls ≠ 0 := by omega
    obtain ⟨next, hnext⟩ := Option.isSome_iff_exists.mp (c.unsubscribed_isSome hleft .ok)
    have hcall := Closing.unsubscribed_call hnext
    have hreach : (system S).Reachable System.anyStep (.closing next) :=
      h.step (a := .unsubscribed .ok) trivial (Option.map_eq_some_iff.mpr ⟨next, hnext, rfl⟩)
    have hcalls := hcall.calls
    obtain ⟨c', hc', hrelay, hdone⟩ := ih hreach (by omega)
    exact ⟨c', hc', hrelay.trans (by cases hcall <;> rfl), hdone⟩

/-- Every run of the process can be run with the calls at the end of its shutdown. -/
theorem reachable_of_process {p : Process Bytes}
    (h : (Process.system S).Reachable System.anyStep p) :
    (system S).Reachable System.anyStep (.process p) := by
  induction h with
  | init hinit =>
    obtain rfl := hinit
    exact .init rfl
  | @step p p' a _ _ hstep ih =>
    by_cases ha : a = .finish
    · subst ha
      cases p with
      | running s =>
        simp only [Process.system, Process.step] at hstep
        split_ifs at hstep with hended
        cases hstep
        have hclosing : (system S).Reachable System.anyStep (.closing (.start S s)) :=
          ih.step (a := .close) trivial (if_pos hended)
        obtain ⟨c, hc, hrelay, hdone⟩ := exists_done hclosing
        have hexited : (system S).Reachable System.anyStep
            (.process (.exited (some c.relay.io))) :=
          hc.step (a := .process .finish) trivial (if_pos hdone)
        rwa [hrelay] at hexited
      | _ => cases hstep
    · exact ih.step (a := .process a) trivial
        ((step_process ha).trans (Option.map_eq_some_iff.mpr ⟨p', hstep, rfl⟩))

/-- The most calls that the end of a shutdown makes: one for each filter of the engine and for each
entry that the correlation map has room for. -/
def maxCalls (S : Setup Bytes ρ) : ℕ :=
  S.engine.uplinkSubscriptions.length + S.engine.downlinkFilters.length + max S.reply.maxPending 1

/-- A shutdown makes no more calls than that. -/
theorem calls_le {P : Exiting Bytes → ExitingAction Bytes → Prop} (h : (system S).Reachable P e) :
    ∀ c, e = .closing c → c.calls ≤ maxCalls S := by
  apply h.invariant (I := fun e => ∀ c, e = .closing c → c.calls ≤ maxCalls S)
  · rintro e rfl c hc
    cases hc
  · rintro e a e' hreach hI - hstep c rfl
    cases step_move hstep with
    | close s =>
      have hdown := Process.downlink_invariant (Downlink.kept_bounded S) (reachable_process hreach)
        s.io rfl
      have hpending := hdown.maxPending ▸ hdown.pending
      simp only [Closing.calls, Closing.start, maxCalls, List.length_map, ReplyCorrelator.drain]
      omega
    | arrive c => exact hI c rfl
    | call c c' outcome hcall =>
      have hbefore := hI c rfl
      have hcalls := hcall.calls
      omega

/-- The unsubscribes at the end of the shutdown succeed. -/
def Unsubscribes (_ : Exiting Bytes) (a : ExitingAction Bytes) : Prop :=
  ∀ outcome, a = .unsubscribed outcome → outcome.effect = true

/-- What is subscribed in the middle of the calls is what those that are left make into the end. -/
theorem unsubscribeAll_eq_finish (h : (system S).Reachable Unsubscribes e) :
    ∀ c, e = .closing c →
      Stopping.unsubscribeAll c.pending (Stopping.unsubscribeAll c.uplink c.subscribed.device) =
        (c.relay.finish S).device ∧
      Stopping.unsubscribeAll c.downlink c.subscribed.site = (c.relay.finish S).site := by
  apply h.invariant (I := fun e => ∀ c, e = .closing c →
      Stopping.unsubscribeAll c.pending (Stopping.unsubscribeAll c.uplink c.subscribed.device) =
        (c.relay.finish S).device ∧
      Stopping.unsubscribeAll c.downlink c.subscribed.site = (c.relay.finish S).site)
  · rintro e rfl c hc
    cases hc
  · rintro e a e' - hI hP hstep c rfl
    cases step_move hstep with
    | close s hcalled hended => exact ⟨rfl, rfl⟩
    | arrive c a relay htask harrive =>
      obtain ⟨hdevice, hsite⟩ := hI c rfl
      obtain ⟨io, hio, rfl⟩ := exists_io_of_arrive htask harrive
      obtain ⟨-, hcorrelator, hsubscriptions⟩ := RelayIo.step_environment htask hio
      simpa [Stopping.finish, Stopping.subscribed, hcorrelator, hsubscriptions] using
        ⟨hdevice, hsite⟩
    | call c c' outcome hcall =>
      obtain ⟨hdevice, hsite⟩ := hI c rfl
      have heffect : ∀ topic subscribed, Closing.remaining topic outcome subscribed =
          subscribed.filter fun t => t ≠ topic := fun _ _ => if_pos (hP outcome rfl)
      cases hcall with
      | uplink filter rest huplink =>
        rw [huplink] at hdevice
        simp only [heffect]
        exact ⟨hdevice, hsite⟩
      | downlink filter rest huplink hdownlink =>
        rw [hdownlink] at hsite
        simp only [heffect]
        exact ⟨hdevice, hsite⟩
      | pending topic rest huplink hdownlink hpending =>
        rw [hpending, huplink] at hdevice
        simp only [heffect, huplink]
        exact ⟨hdevice, hsite⟩

end Exiting

/-- The calls at the end of a shutdown do what `Stopping.finish` says.  The process with these calls
reaches what the process reaches, and nothing else.  And whatever arrives at the brokers while they
are made: if they succeed, then what is still subscribed when none is left is what was subscribed
when the last task had ended, without the filters of the engine and without the topics in the
correlation map. -/
theorem shutdown_calls_finish [Inhabited ρ] (S : Setup Bytes ρ) :
    ((∀ p, (Process.system S).Reachable System.anyStep p →
        (Exiting.system S).Reachable System.anyStep (.process p)) ∧
      ∀ e, (Exiting.system S).Reachable System.anyStep e →
        (Process.system S).Reachable System.anyStep e.hidden) ∧
    ∀ c, (Exiting.system S).Reachable Exiting.Unsubscribes (.closing c) → c.calls = 0 →
      c.subscribed = c.relay.finish S := by
  refine ⟨⟨fun p => Exiting.reachable_of_process, fun e => Exiting.reachable_process⟩,
    fun c h hdone => ?_⟩
  obtain ⟨hdevice, hsite⟩ := Exiting.unsubscribeAll_eq_finish h c rfl
  simp only [Closing.calls, Nat.add_eq_zero_iff, List.length_eq_zero_iff] at hdone
  obtain ⟨⟨huplink, hdownlink⟩, hpending⟩ := hdone
  rw [huplink, hpending] at hdevice
  rw [hdownlink] at hsite
  have hsubscribed : c.subscribed = ⟨c.subscribed.device, c.subscribed.site⟩ := rfl
  have hfinish : c.relay.finish S = ⟨(c.relay.finish S).device, (c.relay.finish S).site⟩ := rfl
  rw [hsubscribed, hfinish, ← hdevice, ← hsite]
  rfl

namespace Exiting

/-- What is to be seen at the end of a shutdown: the calls that are left, and what is subscribed. -/
def summary : Exiting (Message Unit) → Option (ℕ × List String × List String)
  | .process _ => none
  | .closing c => some (c.calls, c.subscribed.device, c.subscribed.site)

/-- A command waits for its reply, shutdown is called, all tasks are cut, and what is subscribed is
unsubscribed. -/
def closingRun : List (ExitingAction (Message Unit)) :=
  (Process.startRun ++ (Stopping.commandRun ++ Stopping.shutdownRun).map ProcessAction.run).map
    ExitingAction.process ++ .close :: List.replicate 15 (.unsubscribed .ok)

/-- Whether an unsubscribe at the end of the shutdown succeeds. -/
def unsubscribes (_ : Exiting (Message Unit)) : ExitingAction (Message Unit) → Bool
  | .unsubscribed outcome => outcome.effect
  | _ => true

/-- A step that passes the test succeeds. -/
theorem unsubscribes_of_test (e : Exiting (Message Unit)) (a : ExitingAction (Message Unit))
    (h : e.unsubscribes a = true) : e.Unsubscribes a := by
  rintro outcome rfl
  exact h

end Exiting

/-- The sample shutdown unsubscribes all filters and the reply topic of the command. -/
theorem shutdown_calls_finish_gw01 : ∃ c : Closing (Message Unit), c.calls = 0 ∧
    (c.relay.finish Setup.gw01).device = [] ∧ (c.relay.finish Setup.gw01).site = [] := by
  obtain ⟨e, he, hobs⟩ := System.exists_reachable_of_exec (M := Exiting.system Setup.gw01)
    (P := Exiting.Unsubscribes) Exiting.unsubscribes Exiting.unsubscribes_of_test (.init rfl)
    Exiting.closingRun Exiting.summary (x := some (0, [], [])) (by decide +kernel)
  cases e with
  | process p => cases hobs
  | closing c =>
    simp only [Exiting.summary, Option.some.injEq, Prod.mk.injEq] at hobs
    obtain ⟨hdone, hdevice, hsite⟩ := hobs
    have hfinish := (shutdown_calls_finish Setup.gw01).2 c he hdone
    exact ⟨c, hdone, hfinish ▸ hdevice, hfinish ▸ hsite⟩

end UnsBridge
