import UnsBridge.Lib.Collections
import UnsBridge.Lib.Runs
import UnsBridge.ShutdownCalls

/-!
# Every way out of the process ends

Once the process is on its way out, every step brings it closer, as long as the broker answers the
calls that it awaits there.  A pump that holds a lock has to go on to its next await before it can
be cut, and the check of a minted topic may spawn one more reply pump until then; the reply pumps
are cut only when all other tasks have ended; and then one unsubscribe after the other is made.
`Exiting.exitSteps` counts the steps that are left.  `exit_reached` says that every order of them is
one that ends, and that the process cannot be stuck in between.
-/

namespace UnsBridge

open Transition

variable {Bytes ρ : Type}

/-! ### What is left of the tasks -/

/-- The steps of a pump until it has been cut: from a receive or a check it goes on to its next
await, and the check may spawn a reply pump. -/
def DownlinkPhase.exitSteps : DownlinkPhase Bytes → ℕ
  | .forwarded _ => 2
  | .checking _ _ _ => 3
  | _ => 1

/-- The steps of a reply pump until it has been cut. -/
def ReplyPhase.exitSteps : ReplyPhase Bytes → ℕ
  | .received _ _ => 2
  | _ => 1

/-- The steps of a task until it has been cut. -/
def Downlink.exitSteps (s : Downlink Bytes) : RelayTask → ℕ
  | .downlinkPump i => (s.pumps i).exitSteps
  | .replyPump k => (s.replyPumps k).exitSteps
  | .uplinkPump _ | .watcher | .sweeper => 1

namespace Stopping

/-- The tasks of a state. -/
def allTasks (S : Setup Bytes ρ) (s : Stopping Bytes) : List RelayTask := tasks S ++ s.replyTasks

/-- The steps that are left of a task. -/
def left (s : Stopping Bytes) (task : RelayTask) : ℕ :=
  if task ∈ s.ended then 0 else s.io.down.exitSteps task

/-- The steps that are left of all tasks. -/
def exitSteps (S : Setup Bytes ρ) (s : Stopping Bytes) : ℕ := ((s.allTasks S).map s.left).sum

/-- Whether a step is one of the exit: a task is cut, or goes on to its next await. -/
def exits (S : Setup Bytes ρ) (s : Stopping Bytes) : StoppingAction Bytes → Bool
  | .shutdown => true
  | .cancel task _ => task ∈ s.allTasks S
  | .run a =>
    match a.task with
    | some task => s.called && task ∈ s.allTasks S && !s.io.down.suspended task
    | none => false

end Stopping

namespace Process

/-- Whether a step is one of the exit of the process. -/
def exits (S : Setup Bytes ρ) : Process Bytes → ProcessAction Bytes → Bool
  | .connecting, .interrupt => true
  | .starting _, .start (.subscribed _) => true
  | .starting _, .started => true
  | .running s, .run a => s.exits S a
  | .running _, .finish => true
  | _, _ => false

/-- The steps that are left of the process. -/
def exitSteps (S : Setup Bytes ρ) : Process Bytes → ℕ
  | .connecting => 1
  | .starting s =>
    if s.failed.isSome then 1
    else (Starting.calls S - s.established) + 3 +
      Stopping.exitSteps S { io := s.io, called := false, ended := [] }
  | .running s => (if s.called then 1 else 2) + s.exitSteps S
  | .exited _ => 0

/-- The steps that the end of its shutdown may take. -/
def closeSteps (S : Setup Bytes ρ) : Process Bytes → ℕ
  | .connecting | .exited _ => 0
  | .starting s => if s.failed.isSome then 0 else Exiting.maxCalls S + 1
  | .running _ => Exiting.maxCalls S + 1

end Process

namespace Exiting

/-- Whether a step is one of the exit: the process goes on to its exit, or the broker answers one of
the calls at the end of the shutdown. -/
def exits (S : Setup Bytes ρ) : Exiting Bytes → ExitingAction Bytes → Bool
  | .process p, .process a => p.exits S a
  | .process _, .close => true
  | .closing _, .unsubscribed _ => true
  | .closing _, .process .finish => true
  | _, _ => false

/-- The steps that are left. -/
def exitSteps (S : Setup Bytes ρ) : Exiting Bytes → ℕ
  | .process p => p.exitSteps S + p.closeSteps S
  | .closing c => c.calls + 1

end Exiting

/-! ### A task that goes on, or is cut -/

namespace Downlink

variable {s s' : Downlink Bytes}

/-- A task needs a step at least, and three at most. -/
theorem exitSteps_mem (s : Downlink Bytes) (task : RelayTask) :
    1 ≤ s.exitSteps task ∧ s.exitSteps task ≤ 3 := by
  cases task with
  | downlinkPump i => cases hpump : s.pumps i <;> simp [exitSteps, DownlinkPhase.exitSteps, hpump]
  | replyPump k => cases hphase : s.replyPumps k <;> simp [exitSteps, ReplyPhase.exitSteps, hphase]
  | _ => simp [exitSteps]

/-- A pump that goes on leaves the other tasks where they are. -/
theorem exitSteps_setPump (s : Downlink Bytes) (i : ℕ) (phase : DownlinkPhase Bytes)
    {other : RelayTask} (hne : other ≠ .downlinkPump i) :
    (s.setPump i phase).exitSteps other = s.exitSteps other := by
  cases other with
  | downlinkPump j =>
    have hji : j ≠ i := fun heq => hne (heq ▸ rfl)
    simp [exitSteps, setPump, hji]
  | _ => rfl

/-- So does a reply pump. -/
theorem exitSteps_setReplyPump (s : Downlink Bytes) (k : ℕ) (phase : ReplyPhase Bytes)
    {other : RelayTask} (hne : other ≠ .replyPump k) :
    (s.setReplyPump k phase).exitSteps other = s.exitSteps other := by
  cases other with
  | replyPump j =>
    have hjk : j ≠ k := fun heq => hne (heq ▸ rfl)
    simp [exitSteps, setReplyPump, hjk]
  | _ => rfl

/-- Cutting a task leaves the steps of the other ones as they are. -/
theorem CutFrame.exitSteps {task other : RelayTask} (h : CutFrame s s' task) (hne : other ≠ task) :
    s'.exitSteps other = s.exitSteps other := by
  cases other with
  | downlinkPump i => simp only [Downlink.exitSteps, h.pumps i hne.symm]
  | replyPump k => simp only [Downlink.exitSteps, h.replyPumps k hne.symm]
  | _ => rfl

/-- A task goes on to its next await, and spawns so many reply pumps. -/
structure Advances (s s' : Downlink Bytes) (task : RelayTask) (spawned : ℕ) : Prop where
  next : s'.nextReplyPump = s.nextReplyPump + spawned
  own : s'.exitSteps task + spawned + 1 ≤ s.exitSteps task
  other : ∀ other ≠ task, (∀ k, other = .replyPump k → k < s.nextReplyPump) →
    s'.exitSteps other = s.exitSteps other
  new : ∀ k, s.nextReplyPump ≤ k → k < s'.nextReplyPump → s'.exitSteps (.replyPump k) = 1

/-- A pump that goes on and spawns nothing. -/
theorem advances_setPump {i : ℕ} {phase : DownlinkPhase Bytes}
    (hpumps : s'.pumps = (s.setPump i phase).pumps) (hreplies : s'.replyPumps = s.replyPumps)
    (hnext : s'.nextReplyPump = s.nextReplyPump)
    (hphase : phase.exitSteps + 1 ≤ (s.pumps i).exitSteps) :
    Advances s s' (.downlinkPump i) 0 := by
  have hsame : ∀ other, s'.exitSteps other = (s.setPump i phase).exitSteps other := by
    intro other
    cases other with
    | downlinkPump j => simp [exitSteps, hpumps]
    | replyPump k => simp [exitSteps, hreplies, setPump]
    | _ => rfl
  constructor
  · simpa using hnext
  · rw [hsame]
    simpa [exitSteps, setPump] using hphase
  · intro other hne _
    rw [hsame, exitSteps_setPump s i phase hne]
  · intro k hle hlt
    omega

/-- A reply pump that goes on. -/
theorem advances_setReplyPump {k : ℕ} {phase : ReplyPhase Bytes} (hpumps : s'.pumps = s.pumps)
    (hreplies : s'.replyPumps = (s.setReplyPump k phase).replyPumps)
    (hnext : s'.nextReplyPump = s.nextReplyPump)
    (hphase : phase.exitSteps + 1 ≤ (s.replyPumps k).exitSteps) :
    Advances s s' (.replyPump k) 0 := by
  have hsame : ∀ other, s'.exitSteps other = (s.setReplyPump k phase).exitSteps other := by
    intro other
    cases other with
    | downlinkPump j => simp [exitSteps, hpumps, setReplyPump]
    | replyPump k => simp [exitSteps, hreplies]
    | _ => rfl
  constructor
  · simpa using hnext
  · rw [hsame]
    simpa [exitSteps, setReplyPump] using hphase
  · intro other hne _
    rw [hsame, exitSteps_setReplyPump s k phase hne]
  · intro k hle hlt
    omega

/-- A pump that is not at an await is about to lock the map. -/
theorem pump_of_busy {i : ℕ} (h : s.suspended (.downlinkPump i) = false) :
    (∃ m, s.pumps i = .forwarded m) ∨
      ∃ m t subscription, s.pumps i = .checking m t subscription := by
  cases hpump : s.pumps i with
  | forwarded m => exact Or.inl ⟨m, rfl⟩
  | checking m t subscription => exact Or.inr ⟨m, t, subscription, rfl⟩
  | _ => simp [suspended, hpump] at h

/-- A reply pump that is not at an await has received a reply. -/
theorem replyPump_of_busy {k : ℕ} (h : s.suspended (.replyPump k) = false) :
    ∃ t payload, s.replyPumps k = .received t payload := by
  cases hphase : s.replyPumps k with
  | received t payload => exact ⟨t, payload, rfl⟩
  | _ => simp [suspended, hphase] at h

/-- The spawn of a reply pump. -/
theorem advances_spawn {i k : ℕ} {m : Command Bytes} {t : String}
    (hpump : s.pumps i = .checking m t k) :
    Advances s ({ s.setReplyPump s.nextReplyPump (.waiting t k) with
      nextReplyPump := s.nextReplyPump + 1 }.publishCommand i m) (.downlinkPump i) 1 := by
  refine ⟨rfl, ?_, fun other hne hold => ?_, fun k' hle hlt => ?_⟩
  · simp [exitSteps, publishCommand, setPump, record, DownlinkPhase.exitSteps, hpump]
  · have hnew : other ≠ .replyPump s.nextReplyPump := fun heq => (hold _ heq).false
    exact ((s.setReplyPump s.nextReplyPump _).exitSteps_setPump i _ hne).trans
      (s.exitSteps_setReplyPump _ _ hnew)
  · obtain rfl : k' = s.nextReplyPump := Nat.le_antisymm (Nat.le_of_lt_succ hlt) hle
    simp [exitSteps, publishCommand, setPump, setReplyPump, record, ReplyPhase.exitSteps]

variable [Inhabited ρ] {S : Setup Bytes ρ} {a : DownlinkAction Bytes} {bumps : List Bump}
  {task : RelayTask}

/-- A task that is not at an await goes on to the next one. -/
theorem Move.advances (hmove : Move S s a s' bumps) (htask : a.task = some task)
    (hbusy : s.suspended task = false) : ∃ spawned, Advances s s' task spawned := by
  cases hmove with
  | publish | reply => cases htask
  | pass i mint now m msg hpump | malformed i mint now m hpump
  | record i mint now m msg site bytes hpump
  | replace i mint now m msg site bytes oldest p rest hpump
  | panic i mint now m pending hpump | undo i m t k hpump =>
    obtain rfl := Option.some.inj htask
    exact ⟨0, advances_setPump rfl rfl rfl (by simp [hpump, DownlinkPhase.exitSteps])⟩
  | spawn i m t k hpump =>
    obtain rfl := Option.some.inj htask
    exact ⟨1, advances_spawn hpump⟩
  | stray k t payload hphase | relay k t payload bytes p before after hphase
  | discard k t payload reason p before after hphase =>
    obtain rfl := Option.some.inj htask
    exact ⟨0, advances_setReplyPump rfl rfl rfl (by simp [hphase, ReplyPhase.exitSteps])⟩
  | refuse i c bus reason hpump | forward i c bus bytes hpump | expired i outcome oldest m t hpump
  | subscribe i m t hpump | abandon i effect m t hpump | dropped i outcome m t hpump
  | settle i outcome m b hpump =>
    obtain rfl := Option.some.inj htask
    simp [suspended, hpump] at hbusy
  | arrive k t subscription payload inbox hphase | close k t subscription hphase
  | relayed k outcome t b hphase | settled k outcome t hphase =>
    obtain rfl := Option.some.inj htask
    simp [suspended, hphase] at hbusy
  | sweep | swept =>
    obtain rfl := Option.some.inj htask
    cases hbusy

/-- A task that is not at an await can go on. -/
theorem exists_step_of_busy (S : Setup Bytes ρ) (hbusy : s.suspended task = false) :
    ∃ a, a.task = some task ∧ (s.step S a).isSome = true := by
  cases task with
  | downlinkPump i =>
    rcases pump_of_busy hbusy with ⟨m, hpump⟩ | ⟨m, t, subscription, hpump⟩
    · refine ⟨.rewriteDownlink i "" 0, rfl, ?_⟩
      simp only [step, rewriteDownlink, hpump]
      split
      · rfl
      · rfl
      · rfl
      · split <;> rfl
    · refine ⟨.check i, rfl, ?_⟩
      simp only [step, check, hpump]
      split <;> rfl
  | replyPump k =>
    obtain ⟨t, payload, hphase⟩ := replyPump_of_busy hbusy
    refine ⟨.handleReply k, rfl, ?_⟩
    simp only [step, handleReply, hphase]
    split
    · rfl
    · split <;> rfl
  | _ => cases hbusy

end Downlink

/-! ### The shutdown -/

namespace Stopping

variable {S : Setup Bytes ρ} {s s' : Stopping Bytes} {task : RelayTask}

/-- What is left of tasks that a cut leaves alone. -/
theorem left_cancel (effect : Bool) (hnot : task ∉ s.ended) :
    let t : Stopping Bytes := { s with
      io := { s.io with down := s.io.down.cut task effect }, ended := s.ended ++ [task] }
    t.left task + 1 ≤ s.left task ∧ ∀ other, t.left other ≤ s.left other := by
  intro t
  have htask : t.left task = 0 := by simp [t, left]
  have hbefore : s.left task = s.io.down.exitSteps task := by simp [left, hnot]
  have hpos := (s.io.down.exitSteps_mem task).1
  refine ⟨by omega, fun other => ?_⟩
  by_cases hsame : other = task
  · rw [hsame, htask]
    exact Nat.zero_le _
  · have hcut := (s.io.down.cut_frame task effect).exitSteps hsame
    simp [t, left, hsame, hcut]

/-- The reply pumps of a state have been spawned. -/
theorem lt_of_mem_allTasks {k : ℕ} (h : .replyPump k ∈ s.allTasks S) :
    k < s.io.down.nextReplyPump := by
  simpa [allTasks, tasks, replyTasks] using h

/-- A cut brings the exit closer. -/
theorem exitSteps_cancel (effect : Bool) (hmem : task ∈ s.allTasks S) (hnot : task ∉ s.ended) :
    exitSteps S { s with
      io := { s.io with down := s.io.down.cut task effect }, ended := s.ended ++ [task] } + 1 ≤
      s.exitSteps S := by
  obtain ⟨htask, hall⟩ := left_cancel effect hnot
  have hnext := (s.io.down.cut_frame task effect).next
  unfold exitSteps allTasks replyTasks
  simp only [hnext]
  exact Collections.sum_add_le_sum hmem (fun other _ => hall other) htask

/-- A task that goes on to its next await brings the exit closer. -/
theorem exitSteps_run {io : RelayIo Bytes} {spawned : ℕ} (hmem : task ∈ s.allTasks S)
    (hnot : task ∉ s.ended) (h : Downlink.Advances s.io.down io.down task spawned) :
    exitSteps S { s with io } + 1 ≤ s.exitSteps S := by
  have hsplit : allTasks S { s with io } = s.allTasks S ++
      (List.range spawned).map fun j => .replyPump (s.io.down.nextReplyPump + j) := by
    simp [allTasks, replyTasks, h.next, List.range_add, Function.comp_def]
  have hnew : (((List.range spawned).map fun j => RelayTask.replyPump
      (s.io.down.nextReplyPump + j)).map (left { s with io })).sum ≤ spawned := by
    refine (List.sum_le_card_nsmul _ 1 fun x hx => ?_).trans (by simp)
    simp only [List.map_map, List.mem_map, List.mem_range, Function.comp_apply] at hx
    obtain ⟨j, hj, rfl⟩ := hx
    have hone := h.new (s.io.down.nextReplyPump + j) (Nat.le_add_right _ _) (by
      rw [h.next]
      omega)
    unfold left
    split
    · exact Nat.zero_le _
    · exact hone.le
  have hold : ((s.allTasks S).map (left { s with io })).sum + (spawned + 1) ≤ s.exitSteps S := by
    refine Collections.sum_add_le_sum hmem (fun other hother => ?_) ?_
    · by_cases hsame : other = task
      · subst hsame
        have hown := h.own
        simp only [left, hnot, if_false]
        omega
      · have hkept := h.other other hsame fun k hk => lt_of_mem_allTasks (hk ▸ hother)
        simp [left, hkept]
    · have hown := h.own
      simp only [left, hnot, if_false]
      omega
  unfold exitSteps
  rw [hsplit, List.map_append, List.sum_append]
  unfold exitSteps at hold
  omega

variable [Inhabited ρ] {a : StoppingAction Bytes}

/-- Every step of the exit brings it closer. -/
theorem exitSteps_step (hexits : s.exits S a = true) (h : s.step S a = some s') :
    (if s'.called then 1 else 2) + s'.exitSteps S + 1 ≤
      (if s.called then 1 else 2) + s.exitSteps S := by
  cases a with
  | shutdown =>
    simp only [step] at h
    split at h
    · cases h
    · rename_i hcalled
      cases h
      rw [if_pos rfl, if_neg hcalled]
      exact Nat.le_of_eq (by rw [Nat.add_right_comm]; rfl)
  | cancel task effect =>
    simp only [step] at h
    split at h
    · rename_i hcut
      cases h
      have hnot : task ∉ s.ended := by simp_all
      have hle := exitSteps_cancel effect (of_decide_eq_true hexits) hnot
      exact Nat.add_le_add_left hle _
    · cases h
  | run a =>
    simp only [step, hasEnded] at h
    simp only [exits] at hexits
    cases htask : a.task with
    | none => simp [htask] at hexits
    | some task =>
      simp only [htask, Bool.and_eq_true, decide_eq_true_eq, Bool.not_eq_true'] at hexits
      obtain ⟨⟨-, hmem⟩, hbusy⟩ := hexits
      simp only [htask] at h
      split at h
      · cases h
      · rename_i hended
        have hnot : task ∉ s.ended := by simpa using hended
        obtain ⟨io, hio, rfl⟩ := Option.map_eq_some_iff.mp h
        cases a with
        | up a => cases a <;> cases htask <;> cases hbusy
        | down a =>
          obtain ⟨bumps, hdown, -, -⟩ := RelayIo.step_down hio
          obtain ⟨spawned, hadvances⟩ := (Downlink.step_move hdown).advances htask hbusy
          exact Nat.add_le_add_left (exitSteps_run hmem hnot hadvances) _

/-- An aborted task can go on to its next await, or be cut. -/
theorem exists_step_of_aborted (hmem : task ∈ s.allTasks S) (hnot : task ∉ s.ended)
    (haborted : s.aborted S task = true) :
    ∃ a, s.exits S a = true ∧ (s.step S a).isSome = true := by
  cases hbusy : s.io.down.suspended task with
  | true => exact ⟨.cancel task false, by simp [exits, hmem], by simp [step, haborted, hnot, hbusy]⟩
  | false =>
    have hcalled : s.called = true := (Bool.and_eq_true_iff.mp haborted).1
    obtain ⟨a, htask, hsome⟩ := s.io.down.exists_step_of_busy S hbusy
    have hrun : (RelayIoAction.down a).task = some task := htask
    refine ⟨.run (.down a), by simp [exits, hrun, hcalled, hmem, hbusy], ?_⟩
    simpa [step, hasEnded, hrun, hnot, RelayIo.step] using hsome

/-- Where tasks are left, the exit can go on: first with the pumps, the watcher and the sweep, and
then with the reply pumps. -/
theorem exists_exit_step (hcalled : s.called = true) (hnot : ¬ s.AllEnded S) :
    ∃ a, s.exits S a = true ∧ (s.step S a).isSome = true := by
  by_cases hmain : ∀ task ∈ tasks S, task ∈ s.ended
  · obtain ⟨task, hmem, hleft⟩ : ∃ task ∈ tasks S ++ s.replyTasks, task ∉ s.ended := by
      simpa [AllEnded] using hnot
    have haborted : s.aborted S task = true := by
      cases task with
      | replyPump k => simpa [aborted, hcalled] using hmain
      | _ => simp [aborted, hcalled]
    exact exists_step_of_aborted hmem hleft haborted
  · push Not at hmain
    obtain ⟨task, hmem, hleft⟩ := hmain
    have haborted : s.aborted S task = true := by
      cases task with
      | replyPump k => simp [tasks] at hmem
      | _ => simp [aborted, hcalled]
    exact exists_step_of_aborted (List.mem_append_left _ hmem) hleft haborted

end Stopping

/-! ### The process -/

namespace Process

variable [Inhabited ρ] {S : Setup Bytes ρ} {p p' : Process Bytes} {a : ProcessAction Bytes}

/-- Every step of the exit brings it closer. -/
theorem exitSteps_step (hexits : p.exits S a = true) (h : p.step S a = some p') :
    p'.exitSteps S + 1 ≤ p.exitSteps S := by
  cases p with
  | connecting =>
    cases a with
    | interrupt =>
      cases h
      exact Nat.le_refl 1
    | _ => cases hexits
  | starting s =>
    cases a with
    | start a =>
      cases a with
      | subscribed outcome =>
        obtain ⟨s', hs, rfl⟩ := Option.map_eq_some_iff.mp h
        simp only [Starting.step, Bool.and_eq_true, decide_eq_true_eq] at hs
        split at hs
        · rename_i hgo
          have hnone : ¬ s.failed.isSome = true := by simpa using hgo.1
          have hbefore : (starting s).exitSteps S = (Starting.calls S - s.established) + 3 +
              Stopping.exitSteps S { io := s.io, called := false, ended := [] } := if_neg hnone
          cases outcome with
          | ok =>
            cases hs
            have hafter : (starting { s with established := s.established + 1 }).exitSteps S =
                (Starting.calls S - (s.established + 1)) + 3 +
                  Stopping.exitSteps S { io := s.io, called := false, ended := [] } := if_neg hnone
            have hlt := hgo.2
            omega
          | failed effect =>
            cases hs
            have hafter : (starting { s with failed := some effect }).exitSteps S = 1 := rfl
            omega
        · cases hs
      | run a => cases hexits
    | started =>
      simp only [step] at h
      split_ifs at h with hfailed hcomplete
      · cases h
        simp [exitSteps, hfailed]
      · cases h
        have hbefore : (starting s).exitSteps S = (Starting.calls S - s.established) + 3 +
            Stopping.exitSteps S { io := s.io, called := false, ended := [] } := if_neg hfailed
        have hafter : (running { io := s.io, called := false, ended := [] }).exitSteps S =
            2 + Stopping.exitSteps S { io := s.io, called := false, ended := [] } := rfl
        omega
    | _ => cases hexits
  | running s =>
    cases a with
    | run a =>
      obtain ⟨s', hs, rfl⟩ := Option.map_eq_some_iff.mp h
      exact Stopping.exitSteps_step hexits hs
    | finish =>
      simp only [step] at h
      split_ifs at h with hended
      cases h
      simp [exitSteps, hended.1]
    | _ => cases hexits
  | exited io => cases a <;> cases hexits

/-- The start makes no more subscriptions than there are. -/
theorem established_le (h : (system S).Reachable System.anyStep p) :
    ∀ s, p = .starting s → s.established ≤ Starting.calls S := by
  apply h.invariant (I := fun p => ∀ s, p = .starting s → s.established ≤ Starting.calls S)
  · rintro p rfl s hs
    cases hs
  · rintro p a p' - hI - hstep s rfl
    cases a with
    | connect outcome siteUp =>
      simp only [system, step] at hstep
      split at hstep <;> cases hstep
      exact Nat.zero_le _
    | start a =>
      simp only [system, step] at hstep
      split at hstep
      · rename_i r
        obtain ⟨s', hs, heq⟩ := Option.map_eq_some_iff.mp hstep
        cases heq
        cases a with
        | subscribed outcome =>
          simp only [Starting.step, Bool.and_eq_true, decide_eq_true_eq] at hs
          split at hs
          · rename_i hgo
            cases outcome <;> cases hs
            · exact hgo.2
            · exact hgo.2.le
          · cases hs
        | run a =>
          obtain ⟨-, io, -, rfl⟩ := Starting.run_of_step hs
          exact hI r rfl
      · cases hstep
    | interrupt =>
      simp only [system, step] at hstep
      split at hstep <;> cases hstep
    | started | finish =>
      simp only [system, step] at hstep
      split at hstep
      · split_ifs at hstep <;> cases hstep
      · cases hstep
    | run a =>
      simp only [system, step] at hstep
      split at hstep
      · obtain ⟨s', -, heq⟩ := Option.map_eq_some_iff.mp hstep
        cases heq
      · cases hstep

/-- Until the process has exited, its exit can go on. -/
theorem exists_exit_step (h : (system S).Reachable System.anyStep p)
    (hnot : ∀ io, p ≠ .exited io) : ∃ a, p.exits S a = true ∧ (p.step S a).isSome = true := by
  cases p with
  | connecting => exact ⟨.interrupt, rfl, rfl⟩
  | starting s =>
    by_cases hfailed : s.failed.isSome = true
    · exact ⟨.started, rfl, by simp [step, hfailed]⟩
    · rcases (established_le h s rfl).lt_or_eq with hlt | heq
      · refine ⟨.start (.subscribed .ok), rfl, ?_⟩
        have hnone : s.failed = none := by simpa using hfailed
        simp [step, Starting.step, hnone, hlt]
      · exact ⟨.started, rfl, by simp [step, hfailed, heq]⟩
  | running s =>
    cases hcalled : s.called with
    | false => exact ⟨.run .shutdown, rfl, by simp [step, Stopping.step, hcalled]⟩
    | true =>
      by_cases hended : s.AllEnded S
      · exact ⟨.finish, rfl, by simp [step, hcalled, hended]⟩
      · obtain ⟨a, hexits, hsome⟩ := Stopping.exists_exit_step hcalled hended
        exact ⟨.run a, hexits, by simpa [step] using hsome⟩
  | exited io => exact absurd rfl (hnot io)

omit [Inhabited ρ] in
/-- The end of the shutdown has no more steps than calls. -/
theorem closeSteps_le (p : Process Bytes) : p.closeSteps S ≤ Exiting.maxCalls S + 1 := by
  cases p with
  | starting s =>
    simp only [closeSteps]
    split <;> omega
  | _ => simp [closeSteps]

/-- No step puts the end of the shutdown off. -/
theorem closeSteps_step (hexits : p.exits S a = true) (h : p.step S a = some p') :
    p'.closeSteps S ≤ p.closeSteps S := by
  cases p with
  | connecting =>
    cases a with
    | interrupt =>
      cases h
      exact Nat.le_refl _
    | _ => cases hexits
  | starting s =>
    cases a with
    | start a =>
      cases a with
      | subscribed outcome =>
        obtain ⟨s', hs, rfl⟩ := Option.map_eq_some_iff.mp h
        simp only [Starting.step, Bool.and_eq_true, decide_eq_true_eq] at hs
        split at hs
        · cases outcome with
          | ok =>
            cases hs
            exact Nat.le_refl _
          | failed effect =>
            cases hs
            exact Nat.zero_le _
        · cases hs
      | run a => cases hexits
    | started =>
      simp only [step] at h
      split_ifs at h with hfailed
      · cases h
        exact Nat.zero_le _
      · cases h
        simp [closeSteps, hfailed]
    | _ => cases hexits
  | running s => exact p'.closeSteps_le
  | exited io => cases a <;> cases hexits

end Process

/-! ### The end of the shutdown -/

namespace Exiting

variable [Inhabited ρ] {S : Setup Bytes ρ} {e e' : Exiting Bytes} {a : ExitingAction Bytes}

/-- Every step of the exit brings it closer. -/
theorem exitSteps_step (hreach : (system S).Reachable System.anyStep e)
    (hexits : e.exits S a = true) (h : e.step S a = some e') :
    e'.exitSteps S + 1 ≤ e.exitSteps S := by
  have hreach' : (system S).Reachable System.anyStep e' := hreach.step trivial h
  cases step_move h with
  | process p p' a ha hprocess =>
    have hsteps := Process.exitSteps_step hexits hprocess
    have hclose := Process.closeSteps_step hexits hprocess
    simp only [exitSteps]
    omega
  | close s hcalled hended =>
    have hcalls := calls_le hreach' _ rfl
    simp only [exitSteps, Process.exitSteps, Process.closeSteps, hcalled, if_true]
    omega
  | arrive c a relay => cases hexits
  | call c c' outcome hcall =>
    have hcalls := hcall.calls
    simp only [exitSteps]
    omega
  | finish c hdone =>
    simp only [exitSteps, Process.exitSteps, Process.closeSteps, hdone]
    omega

/-- Until the process has exited, its exit can go on. -/
theorem exists_exit_step (h : (system S).Reachable System.anyStep e)
    (hnot : ∀ io, e ≠ .process (.exited io)) :
    ∃ a, e.exits S a = true ∧ (e.step S a).isSome = true := by
  cases e with
  | process p =>
    obtain ⟨a, hexits, hsome⟩ := Process.exists_exit_step (reachable_process h)
      fun io heq => hnot io (congrArg process heq)
    by_cases ha : a = .finish
    · -- what finishes the process is the end of its shutdown
      subst ha
      cases p with
      | running s =>
        have hended : s.called = true ∧ s.AllEnded S := by
          by_contra hnot
          simp [hidden, Process.step, hnot] at hsome
        exact ⟨.close, rfl, by simp [step, hended]⟩
      | _ => cases hexits
    · exact ⟨.process a, hexits, by simpa [step_process ha, hidden] using hsome⟩
  | closing c =>
    by_cases hdone : c.calls = 0
    · exact ⟨.process .finish, rfl, by simp [step, hdone]⟩
    · exact ⟨.unsubscribed .ok, rfl, by simpa [step] using c.unsubscribed_isSome hdone .ok⟩

end Exiting

end UnsBridge
