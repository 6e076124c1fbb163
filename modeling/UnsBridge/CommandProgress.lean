import UnsBridge.Io.RelayIo
import UnsBridge.Lib.Runs
import UnsBridge.Transparency

/-!
# The commands get through

A downlink pump serves its queue in order and takes at most seven steps for a command: a receive,
the locked section of `rewrite_downlink`, the unsubscribe of an evicted topic, the subscribe, the
check of the map, the unsubscribe of a topic whose entry has gone, and the publish.  The other
pumps, the sweep and the replies may evict and expire its entries meanwhile, but they do not hold it
up.
`Downlink.ServedWithin` says within how many steps of the pump a command is on the device bus, and
`queued_commands_relayed` concludes that a bounded number of them relays all that was queued.
-/

namespace UnsBridge

open Transition

variable {Bytes ρ : Type}

/-- The steps of a pump until it is idle again. -/
def DownlinkPhase.rest : DownlinkPhase Bytes → ℕ
  | .idle | .dead => 0
  | .publishing _ => 1
  | .dropping _ _ => 2
  | .checking _ _ _ => 3
  | .subscribing _ _ => 4
  | .expiring _ _ _ => 5
  | .forwarded _ => 6

/-- Whether an action is a step of pump `i`. -/
def DownlinkAction.drives (i : ℕ) (a : DownlinkAction Bytes) : Bool :=
  a.task = some (.downlinkPump i)

/-- Whether an action is anything but the failure of a subscribe of pump `i`. -/
def DownlinkAction.subscribes (i : ℕ) : DownlinkAction Bytes → Bool
  | .subscribed j (.failed _) => j ≠ i
  | _ => true

/-- The engine forwards a command. -/
def Setup.Forwards [Inhabited ρ] (S : Setup Bytes ρ) (c : Copy Bytes) : Prop :=
  ∃ bytes, S.engine.decide S.codec .downlink c.topic c.payload = .forward bytes

/-- Whether the engine forwards a command can be decided. -/
instance [Inhabited ρ] (S : Setup Bytes ρ) : DecidablePred S.Forwards := fun c =>
  match h : S.engine.decide S.codec .downlink c.topic c.payload with
  | .forward bytes => .isTrue ⟨bytes, h⟩
  | .drop _ => .isFalse (by simp [Setup.Forwards, h])

/-- The engine has forwarded the command that a pump has yet to publish. -/
def DownlinkPhase.Accepted [Inhabited ρ] (S : Setup Bytes ρ) : DownlinkPhase Bytes → Prop
  | .forwarded m => S.engine.decide S.codec .downlink m.copy.topic m.copy.payload = .forward m.bytes
  | .expiring _ m _ | .subscribing m _ | .checking m _ _ | .dropping m _ => S.Forwards m.copy
  | .idle | .publishing _ | .dead => True

namespace Downlink

/-- A command has been published on the device bus, or is published within `n` steps of pump `i`; a
pump that has panicked takes none. -/
def ServedWithin (i : ℕ) (c : Copy Bytes) (s : Downlink Bytes) (n : ℕ) : Prop :=
  (∃ bytes, .commanded c bytes ∈ s.log) ∨ (s.pumps i = .dead ∧ 1 ≤ n) ∨
    (c ∈ (s.pumps i).unpublished ∧ (s.pumps i).rest ≤ n + 1) ∨
    ∃ before after, s.bus.queues i = before ++ c :: after ∧
      (s.pumps i).rest + 7 * before.length + 6 ≤ n

variable [Inhabited ρ] {S : Setup Bytes ρ} {s s' : Downlink Bytes} {a : DownlinkAction Bytes}
  {bumps : List Bump} {i n : ℕ} {c : Copy Bytes}

/-- What the pumps have yet to publish stays what the engine has forwarded. -/
theorem Move.accepted (h : ∀ i, (s.pumps i).Accepted S) (hmove : Move S s a s' bumps) (i : ℕ) :
    (s'.pumps i).Accepted S := by
  have hupdate : ∀ {j : ℕ} {phase : DownlinkPhase Bytes}, phase.Accepted S →
      (Function.update s.pumps j phase i).Accepted S := by
    intro j phase hphase
    by_cases hij : i = j
    · rwa [hij, Function.update_self]
    · rw [Function.update_of_ne hij]
      exact h i
  have hold : ∀ {j : ℕ} {phase : DownlinkPhase Bytes}, s.pumps j = phase → phase.Accepted S :=
    fun hpump => hpump ▸ h _
  cases hmove with
  | forward j c bus bytes hpump hrecv hdecide => exact hupdate hdecide
  | record j mint now m msg site bytes hpump
  | replace j mint now m msg site bytes oldest p rest hpump => exact hupdate ⟨m.bytes, hold hpump⟩
  | expired j outcome oldest m t hpump | subscribe j m t hpump | undo j m t k hpump =>
    have hforwards : S.Forwards m.copy := hold hpump
    exact hupdate hforwards
  | pass | malformed | panic | abandon | spawn | dropped | settle => exact hupdate trivial
  | _ => exact h i

/-- The engine has forwarded what the pumps have yet to publish, in every state of every run. -/
theorem accepted {P : Downlink Bytes → DownlinkAction Bytes → Prop} (h : (system S).Reachable P s)
    (i : ℕ) : (s.pumps i).Accepted S :=
  move_invariant (I := fun s => ∀ i, (s.pumps i).Accepted S) (fun _ => trivial)
    (fun _ _ _ _ _ haccepted _ hmove => hmove.accepted haccepted) h i

/-- The engine has forwarded the command that a pump is busy with. -/
theorem forwards_of_unpublished {phase : DownlinkPhase Bytes}
    (h : phase.Accepted S) (hc : c ∈ phase.unpublished) : S.Forwards c := by
  cases phase with
  | forwarded m =>
    obtain rfl := List.mem_singleton.mp hc
    exact ⟨m.bytes, h⟩
  | expiring oldest m t | subscribing m t | checking m t k | dropping m t =>
    obtain rfl := List.mem_singleton.mp hc
    exact h
  | _ => cases hc

/-! ### The steps of the others -/

/-- What is not a step of a pump leaves it where it is, and at most adds to its queue. -/
theorem Move.keeps (h : Move S s a s' bumps) (ha : a.drives i = false) :
    s'.pumps i = s.pumps i ∧ ∃ new, s'.bus.queues i = s.bus.queues i ++ new := by
  have hne : ∀ {j : ℕ}, a.task = some (.downlinkPump j) → i ≠ j := by
    rintro j htask rfl
    simp [DownlinkAction.drives, htask] at ha
  have hsame : ∀ b : Bus Bytes, ∃ new, b.queues i = b.queues i ++ new := fun b =>
    ⟨[], (List.append_nil _).symm⟩
  have hrecv : ∀ {j : ℕ} {c : Copy Bytes} {bus : Bus Bytes}, i ≠ j →
      s.bus.recv j = some (c, bus) → ∃ new, bus.queues i = s.bus.queues i ++ new := by
    intro j c bus hij hrecv
    obtain ⟨-, -, rest, -, hqueues⟩ := Bus.recv_eq_some hrecv
    exact ⟨[], by rw [hqueues, Function.update_of_ne hij, List.append_nil]⟩
  cases h with
  | publish topic payload =>
    refine ⟨rfl, ?_⟩
    simp only [Bus.publish]
    split
    · split
      · exact ⟨_, rfl⟩
      · exact hsame _
    · exact hsame _
  | refuse j c bus reason hpump hj => exact ⟨rfl, hrecv (hne rfl) hj⟩
  | forward j c bus bytes hpump hj =>
    exact ⟨Function.update_of_ne (hne rfl) _ _, hrecv (hne rfl) hj⟩
  | pass j | malformed j | record j | replace j | panic j | expired j | subscribe j | abandon j
  | spawn j | undo j | dropped j | settle j =>
    exact ⟨Function.update_of_ne (hne rfl) _ _, hsame _⟩
  | _ => exact ⟨rfl, hsame _⟩

omit [Inhabited ρ] in
/-- Such a step puts nothing off. -/
theorem ServedWithin.keep (h : ServedWithin i c s n) (hpump : s'.pumps i = s.pumps i)
    (hqueue : ∃ new, s'.bus.queues i = s.bus.queues i ++ new) (hlog : s.log ⊆ s'.log) :
    ServedWithin i c s' n := by
  obtain ⟨new, hqueue⟩ := hqueue
  unfold ServedWithin
  rw [hpump]
  rcases h with ⟨bytes, hdone⟩ | hdead | hheld | ⟨before, after, hbefore, hle⟩
  · exact Or.inl ⟨bytes, hlog hdone⟩
  · exact Or.inr (Or.inl hdead)
  · exact Or.inr (Or.inr (Or.inl hheld))
  · refine Or.inr (Or.inr (Or.inr ⟨before, after ++ new, ?_, hle⟩))
    rw [hqueue, hbefore, List.append_assoc, List.cons_append]

/-! ### The steps of the pump -/

omit [Inhabited ρ] in
/-- The pump goes on with its command. -/
theorem ServedWithin.advance (h : ServedWithin i c s n) {phase : DownlinkPhase Bytes}
    (hpump : s'.pumps i = phase) (hqueue : s'.bus.queues i = s.bus.queues i)
    (hlog : s.log ⊆ s'.log) (hrest : phase.rest + 1 ≤ (s.pumps i).rest)
    (hserved : c ∈ (s.pumps i).unpublished →
      c ∈ phase.unpublished ∨ ∃ bytes, .commanded c bytes ∈ s'.log) :
    ServedWithin i c s' (n - 1) := by
  unfold ServedWithin
  rw [hpump, hqueue]
  rcases h with ⟨bytes, hdone⟩ | ⟨hdead, -⟩ | ⟨hheld, hle⟩ | ⟨before, after, hbefore, hle⟩
  · exact Or.inl ⟨bytes, hlog hdone⟩
  · simp [hdead, DownlinkPhase.rest] at hrest
  · rcases hserved hheld with hheld | hdone
    · exact Or.inr (Or.inr (Or.inl ⟨hheld, by omega⟩))
    · exact Or.inl hdone
  · exact Or.inr (Or.inr (Or.inr ⟨before, after, hbefore, by omega⟩))

/-- The pump receives the next command: it is the one in question, or one fewer is before it. -/
theorem ServedWithin.recv (h : ServedWithin i c s n) (hforwards : S.Forwards c)
    (hstep : s.recv S i = some (s', bumps)) : ServedWithin i c s' (n - 1) := by
  unfold Downlink.recv at hstep
  split at hstep
  · rename_i c₀ bus hpump hrecv
    obtain ⟨-, -, rest, hqueue, hqueues⟩ := Bus.recv_eq_some hrecv
    have hbus : bus.queues i = rest := by rw [hqueues, Function.update_self]
    rcases h with hdone | ⟨hdead, -⟩ | ⟨hheld, -⟩ | ⟨before, after, hbefore, hle⟩
    · refine Or.inl ?_
      split at hstep <;> cases hstep <;> exact hdone
    · simp [hdead] at hpump
    · simp [hpump, DownlinkPhase.unpublished] at hheld
    · have hsplit := hqueue.symm.trans hbefore
      rw [hpump] at hle
      cases before with
      | nil =>
        obtain ⟨rfl, -⟩ := List.cons.inj hsplit
        obtain ⟨bytes, hdecide⟩ := hforwards
        rw [hdecide] at hstep
        cases hstep
        refine Or.inr (Or.inr (Or.inl ⟨?_, ?_⟩))
        · simp [setPump, DownlinkPhase.unpublished]
        · simp only [setPump, Function.update_self, DownlinkPhase.rest, List.length_nil] at hle ⊢
          omega
      | cons first before =>
        obtain ⟨-, rfl⟩ := List.cons.inj hsplit
        simp only [DownlinkPhase.rest, List.length_cons] at hle
        split at hstep
        · cases hstep
          refine Or.inr (Or.inr (Or.inr ⟨before, after, hbus, ?_⟩))
          simp only [setPump, Function.update_self, DownlinkPhase.rest]
          omega
        · cases hstep
          refine Or.inr (Or.inr (Or.inr ⟨before, after, hbus, ?_⟩))
          simp only [hpump, DownlinkPhase.rest]
          omega
  · cases hstep

omit [Inhabited ρ] in
/-- A pump that panics had more steps to take. -/
theorem ServedWithin.panic (h : ServedWithin i c s n) (hpump : s'.pumps i = .dead)
    (hlog : s.log ⊆ s'.log) (hrest : 3 ≤ (s.pumps i).rest) : ServedWithin i c s' (n - 1) := by
  rcases h with ⟨bytes, hdone⟩ | ⟨hdead, -⟩ | ⟨-, hle⟩ | ⟨before, after, -, hle⟩
  · exact Or.inl ⟨bytes, hlog hdone⟩
  · simp [hdead, DownlinkPhase.rest] at hrest
  · exact Or.inr (Or.inl ⟨hpump, by omega⟩)
  · exact Or.inr (Or.inl ⟨hpump, by omega⟩)

/-- The locked section of `rewrite_downlink`: the command is published, or its reply path is going
to be established, or the pump panics. -/
theorem ServedWithin.rewriteDownlink (hc : S.codec.Lawful) (htotal : S.codec.Total)
    (h : ServedWithin i c s n) (haccepted : (s.pumps i).Accepted S) {mint : String} {now : Instant}
    (hstep : s.rewriteDownlink S i mint now = some (s', bumps)) :
    ServedWithin i c s' (n - 1) := by
  unfold Downlink.rewriteDownlink at hstep
  cases hpump : s.pumps i with
  | forwarded m =>
    have hrest : (s.pumps i).rest = 6 := by rw [hpump]; rfl
    have hcopy : c ∈ (s.pumps i).unpublished → c = m.copy := by
      simp [hpump, DownlinkPhase.unpublished]
    rw [hpump] at haccepted
    obtain ⟨msg, hdecode⟩ : ∃ msg, S.codec.fromSlice m.bytes = some msg := by
      obtain ⟨m₀, -, -, hdecode⟩ := decode_of_decide hc haccepted
      exact ⟨_, hdecode⟩
    simp only [hpump] at hstep
    cases hreply : msg.header.replyTo with
    | none =>
      have hpass : s.correlator.rewriteDownlink S.codec m.bytes mint now =
          (some .passthrough, s.correlator) := by
        simp [ReplyCorrelator.rewriteDownlink, hdecode, hreply]
      rw [hpass] at hstep
      cases hstep
      refine h.advance (Function.update_self ..) rfl (List.subset_append_left _ _)
        (by rw [hrest]; exact Nat.le_add_left 2 4) fun hheld => Or.inr ⟨m.bytes, ?_⟩
      obtain rfl := hcopy hheld
      exact List.mem_append_right _ (List.mem_singleton_self _)
    | some site =>
      -- the rewritten command can be encoded
      have hraw := (msg.isRaw_setReplyTo (some mint)).trans (hc.decode_not_raw _ _ hdecode)
      obtain ⟨bytes, hencode⟩ := Option.isSome_iff_exists.mp (htotal _ hraw)
      rw [s.correlator.rewriteDownlink_of_request now hdecode hreply hencode] at hstep
      cases hdeadline : Instant.checkedAdd now s.correlator.ttl with
      | none =>
        rw [hdeadline] at hstep
        cases hstep
        exact h.panic (Function.update_self ..) (fun _ he => he) (by rw [hrest]; decide)
      | some deadline =>
        rw [hdeadline] at hstep
        have hgo : ∀ phase : DownlinkPhase Bytes, phase.rest ≤ 5 → phase.unpublished = [m.copy] →
            s'.pumps i = phase → s'.bus.queues i = s.bus.queues i → s.log ⊆ s'.log →
              ServedWithin i c s' (n - 1) := by
          intro phase hphase hcopies hpump' hqueue hlog
          refine h.advance hpump' hqueue hlog (by omega) fun hheld => Or.inl ?_
          rw [hcopies, hcopy hheld]
          exact List.mem_singleton_self _
        cases hevicted : s.correlator.evictOldest.1 <;> simp only [hevicted] at hstep <;>
          cases hstep
        · exact hgo (.subscribing { m with bytes } mint) (Nat.le_succ 4) rfl
            (Function.update_self ..) rfl (List.subset_append_left _ _)
        · exact hgo (.expiring _ { m with bytes } mint) le_rfl rfl (Function.update_self ..) rfl
            (List.subset_append_left _ _)
  | _ => simp [hpump] at hstep

/-- A step of the pump while its subscribes succeed. -/
theorem ServedWithin.drive (hc : S.codec.Lawful) (htotal : S.codec.Total)
    (h : ServedWithin i c s n) (haccepted : (s.pumps i).Accepted S) (hforwards : S.Forwards c)
    (ha : a.drives i = true) (hsubscribes : a.subscribes i = true)
    (hstep : s.step S a = some (s', bumps)) : ServedWithin i c s' (n - 1) := by
  have htask : a.task = some (.downlinkPump i) := of_decide_eq_true ha
  have hi : ∀ {j : ℕ}, a.task = some (.downlinkPump j) → j = i := fun hj =>
    RelayTask.downlinkPump.inj (Option.some.inj (hj.symm.trans htask))
  have hmove := step_move hstep
  have hlog := hmove.subset_log
  cases hmove with
  | refuse j | forward j =>
    obtain rfl := hi rfl
    exact h.recv hforwards hstep
  | pass j | malformed j | record j | replace j | panic j =>
    obtain rfl := hi rfl
    exact h.rewriteDownlink hc htotal haccepted hstep
  | expired j outcome oldest m t hpump | subscribe j m t hpump | undo j m t k hpump
  | settle j outcome m b hpump =>
    obtain rfl := hi rfl
    refine h.advance (Function.update_self ..) rfl hlog ?_ ?_ <;>
      simp +contextual [hpump, DownlinkPhase.rest, DownlinkPhase.unpublished]
  | spawn j m t k hpump | dropped j outcome m t hpump =>
    obtain rfl := hi rfl
    refine h.advance (Function.update_self ..) rfl hlog ?_ ?_
    · simp [hpump, DownlinkPhase.rest]
    · simp +contextual [hpump, DownlinkPhase.unpublished, publishCommand, Downlink.record]
  | abandon j =>
    obtain rfl := hi rfl
    simp [DownlinkAction.subscribes] at hsubscribes
  | _ => cases htask

/-- Any step while the subscribes of the pump succeed: the steps of the pump bring the command
nearer to the device bus, and the others do not put it off. -/
theorem ServedWithin.step (hc : S.codec.Lawful) (htotal : S.codec.Total)
    (h : ServedWithin i c s n) (haccepted : (s.pumps i).Accepted S) (hforwards : S.Forwards c)
    (hsubscribes : a.subscribes i = true) (hstep : s.step S a = some (s', bumps)) :
    ServedWithin i c s' (n - (a.drives i).toNat) := by
  cases ha : a.drives i with
  | true => exact h.drive hc htotal haccepted hforwards ha hsubscribes hstep
  | false =>
    have hmove := step_move hstep
    obtain ⟨hpump, hqueue⟩ := hmove.keeps ha
    exact h.keep hpump hqueue hmove.subset_log

omit [Inhabited ρ] in
/-- What is queued or held is on the device bus within seven steps for each queued command and five
more. -/
theorem servedWithin_of_mem (h : c ∈ (s.pumps i).unpublished ∨ c ∈ s.bus.queues i)
    (hn : 7 * (s.bus.queues i).length + 5 ≤ n) : ServedWithin i c s n := by
  have hrest : (s.pumps i).rest ≤ 6 := by
    cases s.pumps i <;> simp [DownlinkPhase.rest]
  rcases h with hheld | hqueued
  · exact Or.inr (Or.inr (Or.inl ⟨hheld, by omega⟩))
  · obtain ⟨before, after, hqueue⟩ := List.append_of_mem hqueued
    have hlength := congrArg List.length hqueue
    rw [List.length_append, List.length_cons] at hlength
    exact Or.inr (Or.inr (Or.inr ⟨before, after, hqueue, by omega⟩))

/-- A run while the subscribes of the pump succeed. -/
theorem ServedWithin.exec (hc : S.codec.Lawful) (htotal : S.codec.Total)
    (hreach : (system S).Reachable System.anyStep s) (hforwards : S.Forwards c)
    {as : List (DownlinkAction Bytes)} (h : ServedWithin i c s (n + as.countP (·.drives i)))
    (hrun : (system S).exec (fun _ a => a.subscribes i) s as = some s') :
    ServedWithin i c s' n := by
  refine (System.exec_remaining (M := system S)
    (fun s as => (system S).Reachable System.anyStep s ∧
      ServedWithin i c s (n + as.countP (·.drives i)))
    (fun _ a => a.subscribes i) ?_ ⟨hreach, h⟩ hrun).2
  rintro r a as r' hsubscribes hstep ⟨hreach, hwithin⟩
  refine ⟨hreach.step trivial hstep, ?_⟩
  obtain ⟨⟨r'', bumps⟩, hs, rfl⟩ := Option.map_eq_some_iff.mp hstep
  have hnext := hwithin.step hc htotal (accepted hreach i) hforwards hsubscribes hs
  rw [List.countP_cons, ← Nat.add_assoc] at hnext
  cases ha : a.drives i <;> simpa [ha] using hnext

omit [Inhabited ρ] in
/-- Within no step at all is now. -/
theorem ServedWithin.of_zero (h : ServedWithin i c s 0) : ∃ bytes, .commanded c bytes ∈ s.log := by
  rcases h with hdone | ⟨-, hle⟩ | ⟨hheld, hle⟩ | ⟨before, after, -, hle⟩
  · exact hdone
  · cases hle
  · cases hpump : s.pumps i <;>
      simp [hpump, DownlinkPhase.unpublished, DownlinkPhase.rest] at hheld hle
  · exact absurd hle (by omega)

omit [Inhabited ρ] in
/-- What a pump that is idle is done with its queue has been served. -/
theorem ServedWithin.of_idle (h : ServedWithin i c s n) (hpump : s.pumps i = .idle)
    (hqueue : s.bus.queues i = []) : ∃ bytes, .commanded c bytes ∈ s.log := by
  rcases h with hdone | ⟨hdead, -⟩ | ⟨hheld, -⟩ | ⟨before, after, hbefore, -⟩
  · exact hdone
  · simp [hpump] at hdead
  · simp [hpump, DownlinkPhase.unpublished] at hheld
  · simp [hqueue] at hbefore

end Downlink

/-- What is queued is relayed.  Let the codec be lawful and total, and take any state that the
downlink tasks reach and any run from there in which no subscribe of pump `i` fails, whatever the
other tasks do, whatever is published and however the other calls return.  When the pump has taken
seven steps for each command in its queue and five more, or has nothing left to do, then the command
that it was busy with and every queued one that the engine forwards have been published on the
device bus, whatever comes of that call. -/
theorem queued_commands_relayed [Inhabited ρ] (S : Setup Bytes ρ) (hc : S.codec.Lawful)
    (htotal : S.codec.Total) {s t : Downlink Bytes}
    (h : (Downlink.system S).Reachable System.anyStep s) {i : ℕ}
    {as : List (DownlinkAction Bytes)}
    (hrun : (Downlink.system S).exec (fun _ a => a.subscribes i) s as = some t)
    (hend : 7 * (s.bus.queues i).length + 5 ≤ as.countP (·.drives i) ∨
      t.pumps i = .idle ∧ t.bus.queues i = [])
    {c : Copy Bytes}
    (hcommand : c ∈ (s.pumps i).unpublished ∨ c ∈ s.bus.queues i ∧ S.Forwards c) :
    ∃ bytes, .commanded c bytes ∈ t.log := by
  have hforwards : S.Forwards c := hcommand.elim
    (fun hheld => Downlink.forwards_of_unpublished (Downlink.accepted h i) hheld) And.right
  have hmem := hcommand.imp_right And.left
  rcases hend with hcount | ⟨hidle, hempty⟩
  · have hstart := Downlink.servedWithin_of_mem hmem (hcount.trans (Nat.le_add_left _ 0))
    exact (hstart.exec hc htotal h hforwards hrun).of_zero
  · have hstart := Downlink.servedWithin_of_mem hmem
      (Nat.le_add_right (7 * (s.bus.queues i).length + 5) (as.countP (·.drives i)))
    exact (hstart.exec hc htotal h hforwards hrun).of_idle hidle hempty

/-- A command with a reply path and one without are queued. -/
def queueingRun : List (DownlinkAction (Message Unit)) :=
  [.publish "ecv1/gw-01/adapter/main/cmd/write" (.sample (some "site/replies/7")),
    .publish "ecv1/gw-01/adapter/main/cmd/write" (.sample none)]

/-- The pump serves its queue, while the sweep expires the entry of the first command. -/
def servingRun : List (DownlinkAction (Message Unit)) :=
  [.recv 0, .rewriteDownlink 0 "r-1" 0, .sweep 60000000000, .subscribed 0 .ok, .swept .ok,
    .check 0, .dropped 0 (.failed false), .published 0 .failed, .recv 0,
    .rewriteDownlink 0 "r-2" 60000000000, .published 0 .ok]

/-- Both commands of the sample run are published on the device bus. -/
theorem queued_commands_relayed_gw01 : ∃ s t : Downlink (Message Unit),
    (s.bus.queues 0).length = 2 ∧
    (Downlink.system Setup.gw01).exec (fun _ a => a.subscribes 0) s servingRun = some t ∧
    ∀ c ∈ s.bus.queues 0, ∃ bytes, .commanded c bytes ∈ t.log := by
  obtain ⟨s, hs, hobs⟩ := System.exists_reachable_of_exec (M := Downlink.system Setup.gw01)
    (P := System.anyStep) (fun _ _ => true) (fun _ _ _ => trivial) (.init rfl) queueingRun
    (fun s => ((s.bus.queues 0).length,
      (s.bus.queues 0).all fun c => decide (Setup.gw01.Forwards c),
      ((Downlink.system Setup.gw01).exec (fun _ a => a.subscribes 0) s servingRun).map fun t =>
        (t.isQuiescent Setup.gw01, (t.bus.queues 0).isEmpty)))
    (x := (2, true, some (true, true))) (by decide +kernel)
  obtain ⟨hlength, hobs⟩ := Prod.mk.inj hobs
  obtain ⟨hforwards, hobs⟩ := Prod.mk.inj hobs
  obtain ⟨t, ht, hobs⟩ := Option.map_eq_some_iff.mp hobs
  obtain ⟨hquiescent, hempty⟩ := Prod.mk.inj hobs
  have hreach : (Downlink.system Setup.gw01).Reachable System.anyStep t :=
    System.exec_remaining (fun s _ => (Downlink.system Setup.gw01).Reachable System.anyStep s)
      (fun _ a => a.subscribes 0) (fun _ _ _ _ _ hstep hr => hr.step trivial hstep) hs ht
  have hidle := ((Downlink.books hreach).quiescent hquiescent).pumps 0
  refine ⟨s, t, hlength, ht, fun c hc => ?_⟩
  have hforward : Setup.gw01.Forwards c := of_decide_eq_true (List.all_eq_true.mp hforwards c hc)
  exact queued_commands_relayed Setup.gw01 (Codec.plain_lawful Unit) (Codec.plain_total Unit) hs ht
    (Or.inr ⟨hidle, List.isEmpty_iff.mp hempty⟩) (Or.inr ⟨hc, hforward⟩)

end UnsBridge
