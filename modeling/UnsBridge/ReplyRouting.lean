import UnsBridge.Io.RelayIo
import UnsBridge.Lib.History
import UnsBridge.LoopProtection

/-!
# Where replies and rewritten commands go

The log of the downlink is a history in which every event is justified by the events before it
(`Downlink.Justifies`).  A reply goes to the `reply_to` of the command that the topic it arrived on
was minted for, and a command leaves for the device bus with no `reply_to` at all or with the topic
that was minted and subscribed for it.  The invariant `Routed` carries this through every
interleaving of the pumps, the sweep and the reply pumps; that a topic is resolved at most once
follows from its entry leaving the map for good.
-/

namespace UnsBridge

open History Transition

variable {Bytes ρ : Type}

/-- The bytes decode to an envelope with the given `reply_to`. -/
def Setup.Carries (S : Setup Bytes ρ) (bytes : Bytes) (replyTo : Option String) : Prop :=
  ∃ msg, S.codec.fromSlice bytes = some msg ∧ msg.header.replyTo = replyTo

/-- Bytes carry one `reply_to`. -/
theorem Setup.carries_unique {S : Setup Bytes ρ} {bytes : Bytes} {replyTo replyTo' : Option String}
    (h : S.Carries bytes replyTo) (h' : S.Carries bytes replyTo') : replyTo = replyTo' := by
  obtain ⟨msg, hmsg, rfl⟩ := h
  obtain ⟨msg', hmsg', rfl⟩ := h'
  rw [Option.some.inj (hmsg.symm.trans hmsg')]

variable [Inhabited ρ] {S : Setup Bytes ρ}

/-- The relay stamp leaves the `reply_to` alone. -/
theorem Setup.carries_of_decide (hc : S.codec.Lawful) {direction : Direction} {topic : String}
    {payload bytes : Bytes} (h : S.engine.decide S.codec direction topic payload = .forward bytes)
    {replyTo : Option String} (hcarries : S.Carries bytes replyTo) : S.Carries payload replyTo := by
  obtain ⟨m, hdecode, -, hdecode'⟩ := decode_of_decide hc h
  obtain ⟨msg, hmsg, hreply⟩ := hcarries
  rw [hdecode', Option.some.injEq] at hmsg
  subst hmsg
  exact ⟨m, hdecode, hreply⟩

omit [Inhabited ρ] in
/-- A rewritten command carries the minted topic. -/
theorem Setup.carries_of_encode (hc : S.codec.Lawful) {before : Bytes} {msg : Message ρ}
    {mint : String} {bytes : Bytes} (hdecode : S.codec.fromSlice before = some msg)
    (hencode : S.codec.toVec (msg.setReplyTo (some mint)) = some bytes) :
    S.Carries bytes (some mint) := by
  have hraw : msg.isRaw = false := hc.decode_not_raw _ _ hdecode
  exact ⟨_, hc.decode_encode _ _ (by simpa using hraw) hencode, rfl⟩

/-- The topic whose reply an event publishes on the site. -/
def DownlinkEvent.repliedTopic : DownlinkEvent Bytes → Option String
  | .replied t _ _ => some t
  | _ => none

namespace Downlink

/-- The topics whose replies were published on the site. -/
def repliedTopics (s : Downlink Bytes) : List String := s.log.filterMap DownlinkEvent.repliedTopic

/-- What justifies an event: a reply stems from a message that arrived on a topic, and goes to the
`reply_to` of the command that the topic was minted for; a published command had and has no
`reply_to`, or has the topic that was recorded and subscribed for it. -/
def Justifies (S : Setup Bytes ρ) (past : List (DownlinkEvent Bytes)) : DownlinkEvent Bytes → Prop
  | .replied t site bytes => ∃ c payload, .recorded c t ∈ past ∧ S.Carries c.payload (some site) ∧
      .arrived t payload ∈ past ∧ prepareReply S.engine S.codec payload = .forward bytes
  | .commanded c bytes => S.Carries bytes none ∧ S.Carries c.payload none ∨
      ∃ t, S.Carries bytes (some t) ∧ .recorded c t ∈ past ∧ .subscribed t ∈ past
  | _ => True

/-- What is known of the command that a pump holds. -/
def PumpRouted (S : Setup Bytes ρ) (log : List (DownlinkEvent Bytes)) : DownlinkPhase Bytes → Prop
  | .forwarded m => ∀ replyTo, S.Carries m.bytes replyTo → S.Carries m.copy.payload replyTo
  | .expiring _ m t | .subscribing m t => S.Carries m.bytes (some t) ∧ .recorded m.copy t ∈ log
  | .checking m t _ | .dropping m t =>
    S.Carries m.bytes (some t) ∧ .recorded m.copy t ∈ log ∧ .subscribed t ∈ log
  | .idle | .publishing _ | .dead => True

/-- The events of the log are justified, and the tasks hold what will justify the next ones. -/
structure Routed (S : Setup Bytes ρ) (s : Downlink Bytes) : Prop where
  log : Justified (Justifies S) s.log
  pumps : ∀ i, PumpRouted S s.log (s.pumps i)
  pending : ∀ e ∈ s.correlator.pending,
    ∃ c, .recorded c e.1 ∈ s.log ∧ S.Carries c.payload (some e.2.siteReplyTo)
  arrived : ∀ k t payload, s.replyPumps k = .received t payload → .arrived t payload ∈ s.log

variable {s s' : Downlink Bytes} {a : DownlinkAction Bytes} {bumps : List Bump}

omit [Inhabited ρ] in
/-- What is known of a command stays known. -/
theorem PumpRouted.mono {log log' : List (DownlinkEvent Bytes)} (hlog : log ⊆ log')
    {phase : DownlinkPhase Bytes} (h : PumpRouted S log phase) : PumpRouted S log' phase := by
  cases phase with
  | forwarded m => exact h
  | expiring oldest m t => exact ⟨h.1, hlog h.2⟩
  | subscribing m t => exact ⟨h.1, hlog h.2⟩
  | checking m t k => exact ⟨h.1, hlog h.2.1, hlog h.2.2⟩
  | dropping m t => exact ⟨h.1, hlog h.2.1, hlog h.2.2⟩
  | _ => trivial

omit [Inhabited ρ] in
/-- A pump goes on. -/
theorem PumpRouted.update {log log' : List (DownlinkEvent Bytes)} (hlog : log ⊆ log')
    {pumps : ℕ → DownlinkPhase Bytes} (h : ∀ j, PumpRouted S log (pumps j)) {i : ℕ}
    {phase : DownlinkPhase Bytes} (hphase : PumpRouted S log' phase) (j : ℕ) :
    PumpRouted S log' (Function.update pumps i phase j) := by
  by_cases hji : j = i
  · subst hji
    simpa using hphase
  · rw [Function.update_of_ne hji]
    exact (h j).mono hlog

/-- The pumps keep holding what will justify their next events. -/
theorem Routed.pumps_move (hc : S.codec.Lawful) (h : s.Routed S) (hmove : Move S s a s' bumps) :
    ∀ i, PumpRouted S s'.log (s'.pumps i) := by
  have hlog := hmove.subset_log
  have hold : ∀ {i : ℕ} {phase : DownlinkPhase Bytes}, s.pumps i = phase →
      PumpRouted S s.log phase := fun hpump => hpump ▸ h.pumps _
  cases hmove with
  | forward i c bus bytes hpump hrecv hdecide =>
    exact PumpRouted.update hlog h.pumps fun replyTo hcarries =>
      S.carries_of_decide hc hdecide hcarries
  | record i mint now m msg site bytes hpump hdecode hreply hencode =>
    refine PumpRouted.update hlog h.pumps ⟨S.carries_of_encode hc hdecode hencode, ?_⟩
    exact List.mem_append_right _ (List.mem_singleton_self _)
  | replace i mint now m msg site bytes oldest p rest hpump hdecode hreply hencode =>
    refine PumpRouted.update hlog h.pumps ⟨S.carries_of_encode hc hdecode hencode, ?_⟩
    exact List.mem_append_right _ (List.mem_singleton_self _)
  | expired i outcome oldest m t hpump =>
    obtain ⟨hcarries, hrecorded⟩ := hold hpump
    exact PumpRouted.update hlog h.pumps ⟨hcarries, hrecorded⟩
  | subscribe i m t hpump =>
    obtain ⟨hcarries, hrecorded⟩ := hold hpump
    refine PumpRouted.update hlog h.pumps ⟨hcarries, List.mem_append_left _ hrecorded, ?_⟩
    exact List.mem_append_right _ (List.mem_singleton_self _)
  | undo i m t k hpump =>
    obtain ⟨hcarries, hrecorded, hsubscribed⟩ := hold hpump
    exact PumpRouted.update hlog h.pumps ⟨hcarries, hrecorded, hsubscribed⟩
  | pass => exact PumpRouted.update hlog h.pumps trivial
  | malformed => exact PumpRouted.update hlog h.pumps trivial
  | panic => exact PumpRouted.update hlog h.pumps trivial
  | abandon => exact PumpRouted.update hlog h.pumps trivial
  | spawn => exact PumpRouted.update hlog h.pumps trivial
  | dropped => exact PumpRouted.update hlog h.pumps trivial
  | settle => exact PumpRouted.update hlog h.pumps trivial
  | _ => exact fun i => (h.pumps i).mono hlog

/-- The entries keep pointing to their commands. -/
theorem Routed.pending_move (h : s.Routed S) (hmap : MapMove S s a s') :
    ∀ e ∈ s'.correlator.pending,
      ∃ c, .recorded c e.1 ∈ s'.log ∧ S.Carries c.payload (some e.2.siteReplyTo) := by
  cases hmap with
  | shrink es hpending hlog hes =>
    intro e he
    obtain ⟨c, hc, hcarries⟩ := h.pending e (hpending.subset he)
    exact ⟨c, hlog ▸ List.mem_append_left _ hc, hcarries⟩
  | enter i mint now m msg p kept ha hpump hdecode hreply hkept hpending hlog =>
    intro e he
    rw [hlog]
    rcases List.mem_append.mp (hpending ▸ he) with he | he
    · obtain ⟨c, hc, hcarries⟩ := h.pending e (hkept.subset he)
      exact ⟨c, List.mem_append_left _ hc, hcarries⟩
    · obtain rfl := List.mem_singleton.mp he
      have hforwarded : PumpRouted S s.log (.forwarded m) := hpump ▸ h.pumps i
      exact ⟨m.copy, List.mem_append_right _ (List.mem_singleton_self _),
        hforwarded _ ⟨msg, hdecode, hreply⟩⟩

/-- Every move logs justified events only. -/
theorem Routed.log_move (h : s.Routed S) (hmove : Move S s a s' bumps) :
    Justified (Justifies S) s'.log := by
  have hold : ∀ {i : ℕ} {phase : DownlinkPhase Bytes}, s.pumps i = phase →
      PumpRouted S s.log phase := fun hpump => hpump ▸ h.pumps _
  cases hmove with
  | pass i mint now m msg hpump hdecode hreply =>
    have hcarries : S.Carries m.bytes none := ⟨msg, hdecode, hreply⟩
    exact h.log.snoc (Or.inl ⟨hcarries, hold hpump none hcarries⟩)
  | spawn i m t k hpump =>
    obtain ⟨hcarries, hrecorded, hsubscribed⟩ := hold hpump
    exact h.log.snoc (Or.inr ⟨t, hcarries, hrecorded, hsubscribed⟩)
  | dropped i outcome m t hpump =>
    obtain ⟨hcarries, hrecorded, hsubscribed⟩ := hold hpump
    exact h.log.snoc (Or.inr ⟨t, hcarries, hrecorded, hsubscribed⟩)
  | relay k t payload bytes p before after hphase hpending hprepare =>
    have hjust : Justified (Justifies S) (s.log ++ [.taken t]) := h.log.snoc trivial
    obtain ⟨c, hrecorded, hcarries⟩ := h.pending (t, p) (by simp [hpending])
    refine hjust.snoc ⟨c, payload, List.mem_append_left _ hrecorded, hcarries, ?_, hprepare⟩
    exact List.mem_append_left _ (h.arrived k t payload hphase)
  | record => exact h.log.snoc trivial
  | replace => exact h.log.snoc trivial
  | subscribe => exact h.log.snoc trivial
  | arrive => exact h.log.snoc trivial
  | discard => exact h.log.snoc trivial
  | _ => exact h.log

/-- What a reply pump has received is in the log. -/
theorem Routed.arrived_move (h : s.Routed S) (hmove : Move S s a s' bumps) (k : ℕ) (t : String)
    (payload : Bytes) (hphase : s'.replyPumps k = .received t payload) :
    .arrived t payload ∈ s'.log := by
  have hlog := hmove.subset_log
  have hother : ∀ {j : ℕ} {phase : ReplyPhase Bytes},
      Function.update s.replyPumps j phase k = .received t payload →
        phase = .received t payload ∨ .arrived t payload ∈ s'.log := by
    intro j phase hupdate
    by_cases hkj : k = j
    · subst hkj
      exact Or.inl (by simpa using hupdate)
    · rw [Function.update_of_ne hkj] at hupdate
      exact Or.inr (hlog (h.arrived k t payload hupdate))
  cases hmove with
  | arrive j t' subscription payload' inbox hwaiting =>
    rcases hother hphase with hphase | hmem
    · cases hphase
      exact List.mem_append_right _ (List.mem_singleton_self _)
    · exact hmem
  | spawn => exact (hother hphase).resolve_left (by simp)
  | close => exact (hother hphase).resolve_left (by simp)
  | stray => exact (hother hphase).resolve_left (by simp)
  | relay => exact (hother hphase).resolve_left (by simp)
  | discard => exact (hother hphase).resolve_left (by simp)
  | relayed => exact (hother hphase).resolve_left (by simp)
  | settled => exact (hother hphase).resolve_left (by simp)
  | _ => exact hlog (h.arrived k t payload hphase)

/-- Every move keeps everything routed. -/
theorem Routed.move (hc : S.codec.Lawful) (h : s.Routed S) (hmove : Move S s a s' bumps) :
    s'.Routed S :=
  ⟨h.log_move hmove, h.pumps_move hc hmove, h.pending_move hmove.map, h.arrived_move hmove⟩

/-- Everything is routed in every state of every run. -/
theorem routed (hc : S.codec.Lawful) {P : Downlink Bytes → DownlinkAction Bytes → Prop}
    (h : (system S).Reachable P s) : s.Routed S := by
  refine move_invariant ?_ (fun s a _ _ _ hrouted _ hmove => hrouted.move hc hmove) h
  refine ⟨.nil, fun i => trivial, fun e he => ?_, fun k t payload hphase => ?_⟩
  · simp [start, ReplyCorrelator.new] at he
  · simp [start] at hphase

/-! ### One reply for a command -/

/-- No topic was replied to twice, and those that were have been recorded and have no entry any
more. -/
structure RepliedOnce (s : Downlink Bytes) : Prop where
  nodup : s.repliedTopics.Nodup
  recorded : ∀ t ∈ s.repliedTopics, t ∈ s.recordedTopics
  gone : ∀ t ∈ s.repliedTopics, t ∉ s.correlator.topics

/-- A reply is published for an entry that leaves the map, and by no other step. -/
theorem Move.replied (h : Move S s a s' bumps) : s'.repliedTopics = s.repliedTopics ∨
    ∃ t p before after, s.correlator.pending = before ++ (t, p) :: after ∧
      s'.correlator.pending = before ++ after ∧ s'.repliedTopics = s.repliedTopics ++ [t] := by
  have hnone : ∀ e : DownlinkEvent Bytes, e.repliedTopic = none →
      (s.log ++ [e]).filterMap DownlinkEvent.repliedTopic = s.repliedTopics := by
    intro e he
    simp [repliedTopics, he]
  cases h with
  | relay k t payload bytes p before after hphase hpending hprepare =>
    refine Or.inr ⟨t, p, before, after, hpending, rfl, ?_⟩
    change ((s.log ++ [DownlinkEvent.taken t]) ++
      [DownlinkEvent.replied t p.siteReplyTo bytes]).filterMap DownlinkEvent.repliedTopic =
        s.repliedTopics ++ [t]
    rw [List.filterMap_append, hnone _ rfl]
    rfl
  | pass => exact Or.inl (hnone _ rfl)
  | record => exact Or.inl (hnone _ rfl)
  | replace => exact Or.inl (hnone _ rfl)
  | subscribe => exact Or.inl (hnone _ rfl)
  | spawn => exact Or.inl (hnone _ rfl)
  | dropped => exact Or.inl (hnone _ rfl)
  | arrive => exact Or.inl (hnone _ rfl)
  | discard => exact Or.inl (hnone _ rfl)
  | _ => exact Or.inl rfl

/-- With fresh mints, no move replies to a topic for a second time. -/
theorem RepliedOnce.move (hkeys : s.Keys) (hfresh : FreshMints s a) (h : s.RepliedOnce)
    (hmove : Move S s a s' bumps) : s'.RepliedOnce := by
  have hrecorded := hmove.map.subset_recordedTopics
  have hold : ∀ t ∈ s.repliedTopics, t ∉ s'.correlator.topics := fun t ht =>
    hmove.map.notMem_topics hfresh (h.recorded t ht) (h.gone t ht)
  rcases hmove.replied with hreplied | ⟨t, p, before, after, hpending, hkept, hreplied⟩
  · rw [← hreplied] at hold
    exact ⟨hreplied ▸ h.nodup, fun t ht => hrecorded (h.recorded t (hreplied ▸ ht)), hold⟩
  · have htopics : s.correlator.topics = before.map Prod.fst ++ t :: after.map Prod.fst := by
      simp [ReplyCorrelator.topics, hpending]
    have hlive : t ∈ s.correlator.topics := by simp [htopics]
    have hnodup : (t :: (before.map Prod.fst ++ after.map Prod.fst)).Nodup := by
      rw [← List.perm_middle.nodup_iff, ← htopics]
      exact hkeys.nodup
    have hleft : t ∉ s'.correlator.topics := by
      simpa [ReplyCorrelator.topics, hkept] using (List.nodup_cons.mp hnodup).1
    refine ⟨?_, fun t' ht' => ?_, fun t' ht' => ?_⟩
    · rw [hreplied, ← List.concat_eq_append]
      exact h.nodup.concat fun ht => h.gone t ht hlive
    · rcases List.mem_append.mp (hreplied ▸ ht') with ht' | ht'
      · exact hrecorded (h.recorded t' ht')
      · exact hrecorded (List.mem_singleton.mp ht' ▸ hkeys.recorded t hlive)
    · rcases List.mem_append.mp (hreplied ▸ ht') with ht' | ht'
      · exact hold t' ht'
      · exact List.mem_singleton.mp ht' ▸ hleft

/-- No topic is replied to twice in any run with fresh mints. -/
theorem repliedOnce (h : (system S).Reachable FreshMints s) : s.RepliedOnce := by
  refine move_invariant ?_ (fun s a _ _ hreach honce hfresh hmove =>
    honce.move (keys (fun _ _ h => h) hreach) hfresh hmove) h
  exact ⟨List.nodup_nil, by simp [repliedTopics, start], by simp [repliedTopics, start]⟩

end Downlink

/-- The reply proxy never misroutes, duplicates or leaks.  With a lawful codec and fresh mints, in
every run: a reply published on the site goes to the `reply_to` of the only command that the topic
it arrived on was recorded for, and is the prepared form of what arrived there; a command has one
topic, and at most one reply is published for it; and a command published on the device bus carries
no `reply_to`, like the received one, or the topic recorded for it, whose subscribe has succeeded
before. -/
theorem replies_routed (S : Setup Bytes ρ) (hc : S.codec.Lawful) {s : RelayIo Bytes}
    (h : (RelayIo.system S).Reachable (RelayIo.onDown Downlink.FreshMints) s) :
    (∀ past t site bytes future, s.down.log = past ++ .replied t site bytes :: future →
      ∃ c, .recorded c t ∈ past ∧ (∀ c', .recorded c' t ∈ s.down.log → c' = c) ∧
        S.Carries c.payload (some site) ∧
        ∃ payload, .arrived t payload ∈ past ∧
          prepareReply S.engine S.codec payload = .forward bytes) ∧
    (∀ c t, .recorded c t ∈ s.down.log → (∀ t', .recorded c t' ∈ s.down.log → t' = t) ∧
      s.down.repliedTopics.count t ≤ 1) ∧
    ∀ past c bytes future, s.down.log = past ++ .commanded c bytes :: future →
      S.Carries bytes none ∧ S.Carries c.payload none ∨
        ∃ t, S.Carries bytes (some t) ∧ .recorded c t ∈ past ∧ .subscribed t ∈ past := by
  have hdown := RelayIo.reachable_down h
  have hrouted := Downlink.routed hc hdown
  have hkeys := Downlink.keys (fun _ _ h => h) hdown
  have hbooks := Downlink.books hdown
  refine ⟨fun past t site bytes future hlog => ?_, fun c t hrecorded => ⟨?_, ?_⟩, ?_⟩
  · obtain ⟨c, payload, hrecorded, hcarries, harrived, hprepare⟩ := hrouted.log _ _ _ hlog
    refine ⟨c, hrecorded, fun c' hc' => ?_, hcarries, payload, harrived, hprepare⟩
    have hmem : .recorded c t ∈ s.down.log := hlog ▸ List.mem_append_left _ hrecorded
    exact hkeys.copy_unique hc' hmem
  · exact fun t' ht' => hbooks.recording_unique (Downlink.mem_recordings.mpr ht')
      (Downlink.mem_recordings.mpr hrecorded)
  · exact List.nodup_iff_count_le_one.mp (Downlink.repliedOnce hdown).nodup t
  · exact fun past c bytes future hlog => hrouted.log _ _ _ hlog

/-- Whether a step mints a topic that was recorded before. -/
def mintsFresh (s : RelayIo Bytes) : RelayIoAction Bytes → Bool
  | .down (.rewriteDownlink _ mint _) => mint ∉ s.down.recordedTopics
  | _ => true

omit [Inhabited ρ] in
/-- A step that passes the test mints a fresh topic. -/
theorem freshMints_of_mintsFresh (s : RelayIo Bytes) (a : RelayIoAction Bytes)
    (h : mintsFresh s a = true) : RelayIo.onDown Downlink.FreshMints s a := by
  rintro b rfl i mint now rfl
  simpa [mintsFresh] using h

/-- A command with a reply path is relayed, its reply arrives and is published on the site. -/
def replyRun : List (RelayIoAction (Message Unit)) :=
  [.down (.publish "ecv1/gw-01/adapter/main/cmd/write" (.sample (some "site/replies/7"))),
    .down (.recv 0), .down (.rewriteDownlink 0 "r-1" 0), .down (.subscribed 0 .ok),
    .down (.check 0), .down (.published 0 .ok), .down (.reply "r-1" (.sample none)),
    .down (.replyRecv 0), .down (.handleReply 0), .down (.replyPublished 0 .ok),
    .down (.replySettled 0 .ok)]

/-- The site topic of a reply that an event publishes. -/
def DownlinkEvent.siteTopic : DownlinkEvent Bytes → Option String
  | .replied _ site _ => some site
  | _ => none

/-- The relay of device `gw-01` sends the reply of the sample run to the topic that its command
asked for. -/
theorem replies_routed_gw01 : ∃ s : RelayIo (Message Unit),
    s.down.log.filterMap DownlinkEvent.siteTopic = ["site/replies/7"] ∧
    ∀ past t site bytes future, s.down.log = past ++ .replied t site bytes :: future →
      ∃ c, .recorded c t ∈ past ∧ Setup.gw01.Carries c.payload (some site) := by
  obtain ⟨s, hs, hobs⟩ := System.exists_reachable_of_exec (M := RelayIo.system Setup.gw01)
    mintsFresh freshMints_of_mintsFresh (.init ⟨true, rfl⟩) replyRun
    (fun s => s.down.log.filterMap DownlinkEvent.siteTopic) (x := ["site/replies/7"])
    (by decide +kernel)
  refine ⟨s, hobs, fun past t site bytes future hlog => ?_⟩
  obtain ⟨c, hrecorded, -, hcarries, -⟩ :=
    (replies_routed Setup.gw01 (Codec.plain_lawful Unit) hs).1 past t site bytes future hlog
  exact ⟨c, hrecorded, hcarries⟩

end UnsBridge
