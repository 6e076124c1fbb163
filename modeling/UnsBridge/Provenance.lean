import UnsBridge.Process
import UnsBridge.ReplyRouting
import UnsBridge.Transparency

/-!
# Where the messages of the bridge come from

What the tasks of the relay publish, traced back to what they have received.  On the site broker
these are the messages of the device bus and the replies, on the device bus the commands of the site
and the rehydration broadcasts of the watcher.  What the component says about itself on the device
bus, its own state, configuration and metrics, is not theirs.  `Uplink.Genuine` and
`Downlink.Genuine` trace them to the publish that they stem from, and say that only the documented
touches separate the two.

Both are kept while the relay starts and while it stops, so that `site_traffic_genuine` and
`device_traffic_genuine` are about the whole life of the process.
-/

namespace UnsBridge

open RelayEngine TopicFilter Transition

variable {Bytes ρ : Type} [Inhabited ρ]

/-- The bytes carry an envelope that the hop rules accept, with one hop more and the given change to
it. -/
def Setup.Relays (S : Setup Bytes ρ) (change : Message ρ → Message ρ) (payload bytes : Bytes) :
    Prop :=
  ∃ m out, S.codec.fromSlice payload = some m ∧ S.engine.AcceptsHops m ∧
    S.codec.fromSlice bytes = some out ∧ S.engine.Stamped (change m) out

/-- What `decide` forwards carries the received envelope. -/
theorem Setup.relays_of_decide {S : Setup Bytes ρ} (hc : S.codec.Lawful) {direction : Direction}
    {topic : String} {payload bytes : Bytes}
    (h : S.engine.decide S.codec direction topic payload = .forward bytes) :
    S.Relays id payload bytes := by
  obtain ⟨m, hdecode, haccepts, hout⟩ := decode_of_decide hc h
  exact ⟨m, _, hdecode, haccepts, hout, stamped_iff.mpr rfl⟩

/-- What `prepare_reply` forwards carries the received envelope, without a `reply_to`. -/
theorem Setup.relays_of_prepareReply {S : Setup Bytes ρ} (hc : S.codec.Lawful)
    {payload bytes : Bytes} (h : prepareReply S.engine S.codec payload = .forward bytes) :
    S.Relays (·.setReplyTo none) payload bytes := by
  obtain ⟨m, m', hdecode, hstamp, hencode⟩ := prepareReply_eq_forward_iff.mp h
  have hraw : m.isRaw = false := hc.decode_not_raw _ _ hdecode
  obtain ⟨haccepts, rfl⟩ := (stampHop_eq_ok_iff (by simpa using hraw)).mp hstamp
  exact ⟨m, _, hdecode, haccepts, hc.decode_encode _ _ (by simpa using hraw) hencode,
    stamped_iff.mpr rfl⟩

/-! ### On the site broker -/

namespace Uplink

variable {S : Setup Bytes ρ} {s s' : Uplink Bytes}

/-- What is published on the site stems from a publish on the device bus. -/
theorem Books.genuine (hc : S.codec.Lawful) (h : s.Books S) {m : Forwarded Bytes}
    (hm : s.Sent m) : (∃ payload, (m.topic, payload) ∈ s.bus.published ∧
      S.Relays id payload m.bytes) ∧
      ∃ cls ∈ uplinkClasses S.engine.appEnabled, locateClass m.topic = some cls := by
  obtain ⟨c, hcopy, hfrom⟩ := h.placed.origin m (h.handed_of_sent hm)
  have hpub := (h.wf.bus.faithful _ c (Bus.mem_log_of_received hcopy)).2.1
  obtain ⟨hroute, -⟩ := decide_eq_forward_iff.mp hfrom.decided
  obtain ⟨cls, hcls, hmem⟩ := route_uplink_iff.mp hroute
  refine ⟨⟨c.payload, ?_, S.relays_of_decide hc hfrom.decided⟩, cls, hmem, ?_⟩
  · exact hfrom.topic ▸ List.mem_of_getElem? hpub
  · exact hfrom.topic ▸ hcls

end Uplink

/-! ### On the device bus -/

/-- What is published on the device bus for a command of the site that the route admits: its
envelope, which has no `reply_to`, or which has one that is exchanged for a recorded topic. -/
def Downlink.Serves (S : Setup Bytes ρ) (received : List (Copy Bytes))
    (log : List (DownlinkEvent Bytes)) (c : Copy Bytes) (bytes : Bytes) : Prop :=
  c ∈ received ∧ S.engine.route .downlink c.topic = .ok () ∧
    (S.Carries c.payload none ∧ S.Relays id c.payload bytes ∨
      ∃ site t, S.Carries c.payload (some site) ∧ .recorded c t ∈ log ∧
        S.Relays (·.setReplyTo (some t)) c.payload bytes)

/-- What is known of the command that a pump holds. -/
def Downlink.PumpServes (S : Setup Bytes ρ) (received : List (Copy Bytes))
    (log : List (DownlinkEvent Bytes)) : DownlinkPhase Bytes → Prop
  | .forwarded m =>
    m.copy ∈ received ∧ S.engine.route .downlink m.copy.topic = .ok () ∧
      S.Relays id m.copy.payload m.bytes
  | .expiring _ m _ | .subscribing m _ | .checking m _ _ | .dropping m _ =>
    Serves S received log m.copy m.bytes
  | .idle | .publishing _ | .dead => True

namespace Downlink

/-- The commands on the device bus are those of the site broker. -/
structure Genuine (S : Setup Bytes ρ) (s : Downlink Bytes) : Prop where
  bus : s.bus.Sound S.siteSubscriptions
  pumps : ∀ i, PumpServes S s.bus.received s.log (s.pumps i)
  commanded : ∀ c bytes, .commanded c bytes ∈ s.log → Serves S s.bus.received s.log c bytes

variable {S : Setup Bytes ρ} {s s' : Downlink Bytes} {a : DownlinkAction Bytes} {bumps : List Bump}
  {received received' : List (Copy Bytes)} {log log' : List (DownlinkEvent Bytes)}

/-- What has been served stays served. -/
theorem Serves.mono (hreceived : received ⊆ received') (hlog : log ⊆ log') {c : Copy Bytes}
    {bytes : Bytes} (h : Serves S received log c bytes) : Serves S received' log' c bytes := by
  obtain ⟨hc, hroute, hpass | ⟨site, t, hcarries, hrecorded, hrelays⟩⟩ := h
  · exact ⟨hreceived hc, hroute, Or.inl hpass⟩
  · exact ⟨hreceived hc, hroute, Or.inr ⟨site, t, hcarries, hlog hrecorded, hrelays⟩⟩

/-- What is known of a pump stays known. -/
theorem PumpServes.mono (hreceived : received ⊆ received') (hlog : log ⊆ log')
    {phase : DownlinkPhase Bytes} (h : PumpServes S received log phase) :
    PumpServes S received' log' phase := by
  cases phase with
  | forwarded m => exact ⟨hreceived h.1, h.2⟩
  | expiring oldest m t => exact Serves.mono hreceived hlog h
  | subscribing m t => exact Serves.mono hreceived hlog h
  | checking m t k => exact Serves.mono hreceived hlog h
  | dropping m t => exact Serves.mono hreceived hlog h
  | _ => trivial

/-- A command without a `reply_to` is served as it is. -/
theorem PumpServes.pass {m : Command Bytes} {msg : Message ρ}
    (h : PumpServes S received log (.forwarded m)) (hdecode : S.codec.fromSlice m.bytes = some msg)
    (hreply : msg.header.replyTo = none) : Serves S received log m.copy m.bytes := by
  obtain ⟨hmem, hroute, hrelays⟩ := h
  obtain ⟨msg', out, hdecode', haccepts, hout, hstamped⟩ := hrelays
  obtain rfl := Option.some.inj (hdecode.symm.trans hout)
  have hcarries : S.Carries m.copy.payload none :=
    ⟨msg', hdecode', (congrArg Header.replyTo hstamped.header).symm.trans hreply⟩
  exact ⟨hmem, hroute, Or.inl ⟨hcarries, msg', msg, hdecode', haccepts, hout, hstamped⟩⟩

/-- A rewritten command is served. -/
theorem PumpServes.rewrite (hc : S.codec.Lawful) {m : Command Bytes} {msg : Message ρ}
    {site t : String} {bytes : Bytes} (h : PumpServes S received log (.forwarded m))
    (hdecode : S.codec.fromSlice m.bytes = some msg) (hreply : msg.header.replyTo = some site)
    (hencode : S.codec.toVec (msg.setReplyTo (some t)) = some bytes) :
    Serves S received (log ++ [.recorded m.copy t]) m.copy bytes := by
  obtain ⟨hmem, hroute, msg', out, hdecode', haccepts, hout, hstamped⟩ := h
  obtain rfl := Option.some.inj (hdecode.symm.trans hout)
  have hraw : (msg.setReplyTo (some t)).isRaw = false :=
    (msg.isRaw_setReplyTo (some t)).trans (hc.decode_not_raw _ _ hdecode)
  have hcarries : S.Carries m.copy.payload (some site) :=
    ⟨msg', hdecode', (congrArg Header.replyTo hstamped.header).symm.trans hreply⟩
  -- the stamp and the new `reply_to` touch different places of the envelope
  have hboth : S.engine.Stamped (msg'.setReplyTo (some t)) (msg.setReplyTo (some t)) := by
    rw [stamped_iff] at hstamped ⊢
    subst hstamped
    rfl
  refine ⟨hmem, hroute, Or.inr ⟨site, t, hcarries, by simp, msg', _, hdecode', haccepts, ?_, hboth⟩⟩
  exact hc.decode_encode _ _ hraw hencode

/-- A pump goes on. -/
theorem PumpServes.update (hreceived : received ⊆ received') (hlog : log ⊆ log')
    {pumps : ℕ → DownlinkPhase Bytes} (h : ∀ j, PumpServes S received log (pumps j)) {i : ℕ}
    {phase : DownlinkPhase Bytes} (hphase : PumpServes S received' log' phase) (j : ℕ) :
    PumpServes S received' log' (Function.update pumps i phase j) := by
  by_cases hji : j = i
  · subst hji
    simpa using hphase
  · rw [Function.update_of_ne hji]
    exact (h j).mono hreceived hlog

/-- What the pumps have received only grows. -/
theorem Move.subset_received (hbus : s.bus.Sound S.siteSubscriptions) (h : Move S s a s' bumps) :
    s.bus.received ⊆ s'.bus.received := by
  cases h.pump hbus with
  | keep es hpumps hreceived => exact hreceived ▸ List.Subset.refl _
  | refuse c hpumps hreceived => exact hreceived ▸ List.subset_append_left _ _
  | forward i c bytes hidle hsub hpumps hreceived => exact hreceived ▸ List.subset_append_left _ _
  | advance i es phase hstep hpumps hreceived => exact hreceived ▸ List.Subset.refl _

/-- The pumps go on with commands of the site. -/
theorem Genuine.pumps_move (hc : S.codec.Lawful) (h : s.Genuine S) (hmove : Move S s a s' bumps) :
    ∀ i, PumpServes S s'.bus.received s'.log (s'.pumps i) := by
  have hreceived := hmove.subset_received h.bus
  have hlog := hmove.subset_log
  have hold : ∀ {i : ℕ} {phase : DownlinkPhase Bytes}, s.pumps i = phase →
      PumpServes S s.bus.received s.log phase := fun hpump => hpump ▸ h.pumps _
  cases hmove with
  | forward i c bus bytes hpump hrecv hdecide =>
    refine PumpServes.update hreceived hlog h.pumps ⟨?_, ?_, S.relays_of_decide hc hdecide⟩
    · exact (Bus.recv_eq_some hrecv).2.1 ▸ List.mem_append_right _ (List.mem_singleton_self c)
    · exact (decide_eq_forward_iff.mp hdecide).1
  | record i mint now m msg site bytes hpump hdecode hreply hencode =>
    exact PumpServes.update hreceived hlog h.pumps ((hold hpump).rewrite hc hdecode hreply hencode)
  | replace i mint now m msg site bytes oldest p rest hpump hdecode hreply hencode =>
    exact PumpServes.update hreceived hlog h.pumps ((hold hpump).rewrite hc hdecode hreply hencode)
  | expired i outcome oldest m t hpump =>
    have hserves : Serves S s.bus.received s.log m.copy m.bytes := hold hpump
    exact PumpServes.update hreceived hlog h.pumps hserves
  | subscribe i m t hpump =>
    have hserves : Serves S s.bus.received s.log m.copy m.bytes := hold hpump
    exact PumpServes.update hreceived hlog h.pumps (hserves.mono hreceived hlog)
  | undo i m t k hpump =>
    have hserves : Serves S s.bus.received s.log m.copy m.bytes := hold hpump
    exact PumpServes.update hreceived hlog h.pumps hserves
  | pass => exact PumpServes.update hreceived hlog h.pumps trivial
  | malformed => exact PumpServes.update hreceived hlog h.pumps trivial
  | panic => exact PumpServes.update hreceived hlog h.pumps trivial
  | abandon => exact PumpServes.update hreceived hlog h.pumps trivial
  | spawn => exact PumpServes.update hreceived hlog h.pumps trivial
  | dropped => exact PumpServes.update hreceived hlog h.pumps trivial
  | settle => exact PumpServes.update hreceived hlog h.pumps trivial
  | _ => exact fun i => (h.pumps i).mono hreceived hlog

/-- The commands that are published are commands of the site. -/
theorem Genuine.commanded_move (h : s.Genuine S) (hmove : Move S s a s' bumps) (c : Copy Bytes)
    (bytes : Bytes) (hcommanded : .commanded c bytes ∈ s'.log) :
    Serves S s'.bus.received s'.log c bytes := by
  have hreceived := hmove.subset_received h.bus
  have hlog := hmove.subset_log
  have hold : .commanded c bytes ∈ s.log → Serves S s'.bus.received s'.log c bytes :=
    fun hmem => (h.commanded c bytes hmem).mono hreceived hlog
  have hnew : ∀ {m : Command Bytes}, .commanded c bytes ∈ s.log ++ [.commanded m.copy m.bytes] →
      Serves S s'.bus.received s'.log m.copy m.bytes →
        Serves S s'.bus.received s'.log c bytes := by
    intro m hmem hserves
    rcases List.mem_append.mp hmem with hmem | hmem
    · exact hold hmem
    · cases List.mem_singleton.mp hmem
      exact hserves
  have hother : ∀ {es : List (DownlinkEvent Bytes)}, .commanded c bytes ∉ es →
      .commanded c bytes ∈ s.log ++ es → Serves S s'.bus.received s'.log c bytes := fun hes hmem =>
    hold ((List.mem_append.mp hmem).resolve_right hes)
  cases hmove with
  | pass i mint now m msg hpump hdecode hreply =>
    have hforwarded : PumpServes S s.bus.received s.log (.forwarded m) := hpump ▸ h.pumps i
    exact hnew hcommanded ((hforwarded.pass hdecode hreply).mono hreceived hlog)
  | spawn i m t k hpump =>
    have hchecking : PumpServes S s.bus.received s.log (.checking m t k) := hpump ▸ h.pumps i
    exact hnew hcommanded (Serves.mono hreceived hlog hchecking)
  | dropped i outcome m t hpump =>
    have hdropping : PumpServes S s.bus.received s.log (.dropping m t) := hpump ▸ h.pumps i
    exact hnew hcommanded (Serves.mono hreceived hlog hdropping)
  | record => exact hother (by simp) hcommanded
  | replace => exact hother (by simp) hcommanded
  | subscribe => exact hother (by simp) hcommanded
  | arrive => exact hother (by simp) hcommanded
  | relay =>
    rcases List.mem_append.mp hcommanded with hmem | hmem
    · exact hother (by simp) hmem
    · cases List.mem_singleton.mp hmem
  | discard => exact hother (by simp) hcommanded
  | _ => exact hold hcommanded

/-- The commands on the device bus are those of the site broker from the start of the relay to the
end of the process. -/
theorem kept_genuine (hc : S.codec.Lawful) : Kept S (Genuine S) where
  start := ⟨.start _, fun _ => trivial, fun _ _ h => absurd h List.not_mem_nil⟩
  step _ _ _ _ h hstep :=
    have hmove := step_move hstep
    ⟨hmove.sound h.bus, h.pumps_move hc hmove, h.commanded_move hmove⟩
  publish _ n topic payload h := ⟨h.bus.publish_take n topic payload, h.pumps, h.commanded⟩
  cut _ _ _ _ h _ :=
    ⟨h.bus, PumpServes.update (fun _ h => h) (fun _ h => h) h.pumps trivial, h.commanded⟩

/-- So is everything routed. -/
theorem kept_routed (hc : S.codec.Lawful) : Kept S (Routed S) where
  start := by
    refine ⟨.nil, fun i => trivial, fun e he => ?_, fun k t payload hphase => ?_⟩
    · simp [Downlink.start, ReplyCorrelator.new] at he
    · simp [Downlink.start] at hphase
  step _ _ _ _ h hstep := h.move hc (step_move hstep)
  publish _ _ _ _ h := ⟨h.log, h.pumps, h.pending, h.arrived⟩
  cut _ _ _ _ h _ :=
    ⟨h.log, PumpRouted.update (fun _ h => h) h.pumps trivial, h.pending, h.arrived⟩

/-- A reply on the site broker stems from one that arrived on the topic of a command. -/
theorem Routed.reply_genuine (hc : S.codec.Lawful) (h : s.Routed S) (hbooks : s.Books S)
    {t site : String} {bytes : Bytes} (hreplied : .replied t site bytes ∈ s.log) :
    ∃ c payload, (c.topic, c.payload) ∈ s.bus.published ∧ .recorded c t ∈ s.log ∧
      S.Carries c.payload (some site) ∧ .arrived t payload ∈ s.log ∧
      S.Relays (·.setReplyTo none) payload bytes := by
  obtain ⟨past, future, hlog⟩ := List.append_of_mem hreplied
  obtain ⟨c, payload, hrecorded, hcarries, harrived, hprepare⟩ := h.log past _ future hlog
  have hpast : past ⊆ s.log := hlog ▸ List.subset_append_left _ _
  have hreceived : c ∈ s.bus.received :=
    hbooks.recorded.received (List.mem_filterMap.mpr ⟨_, hpast hrecorded, rfl⟩)
  have hpub := (hbooks.bus.faithful _ c (Bus.mem_log_of_received hreceived)).2.1
  exact ⟨c, payload, List.mem_of_getElem? hpub, hpast hrecorded, hcarries, hpast harrived,
    S.relays_of_prepareReply hc hprepare⟩

end Downlink

/-! ### The broadcasts -/

namespace Uplink

/-- What the watcher publishes on the device bus, and what it is still to publish there, are the
rehydration broadcasts. -/
structure Broadcasts (S : Setup Bytes ρ) (s : Uplink Bytes) : Prop where
  made : ∀ topic, .broadcast topic ∈ s.trace → topic ∈ S.engine.rehydrationTopics
  todo : ∀ p ∈ s.watcher.phase.todo, p.2 ∈ S.engine.rehydrationTopics

variable {S : Setup Bytes ρ} {s s' : Uplink Bytes}

omit [Inhabited ρ] in
/-- The watcher makes no other broadcasts. -/
theorem WatchMove.broadcasts {a : UplinkAction Bytes} {w : Watcher Bytes} {es : List WatchEvent}
    (htodo : ∀ p ∈ s.watcher.phase.todo, p.2 ∈ S.engine.rehydrationTopics)
    (h : WatchMove S s a w es) :
    (∀ topic, .broadcast topic ∈ es → topic ∈ S.engine.rehydrationTopics) ∧
      ∀ p ∈ w.phase.todo, p.2 ∈ S.engine.rehydrationTopics := by
  cases h with
  | keep => exact ⟨by simp, htodo⟩
  | link up => exact ⟨by cases up <;> simp, htodo⟩
  | rise =>
    refine ⟨by simp, fun p hp => ?_⟩
    rw [← S.map_snd_broadcasts]
    exact List.mem_map_of_mem hp
  | skip cmd topic rest hphase =>
    rw [hphase] at htodo
    exact ⟨by simp, fun p hp => htodo p (List.mem_cons_of_mem _ hp)⟩
  | broadcast cmd topic rest hphase =>
    rw [hphase] at htodo
    refine ⟨fun t ht => ?_, fun p hp => htodo p (List.mem_cons_of_mem _ hp)⟩
    obtain rfl : t = topic := by simpa using ht
    exact htodo (cmd, t) List.mem_cons_self
  | broadcasted outcome rest hphase =>
    rw [hphase] at htodo
    exact ⟨by simp, htodo⟩
  | advance a phase hphase hphase' =>
    refine ⟨by simp, fun p hp => ?_⟩
    cases phase <;> simp_all [WatcherPhase.todo, WatcherPhase.Replays]
  | _ => exact ⟨by simp, by simp [WatcherPhase.todo]⟩

/-- The broadcasts on the device bus are those of the engine from the start of the relay to the end
of the process. -/
theorem kept_broadcasts (S : Setup Bytes ρ) : Kept S (Broadcasts S) where
  start siteUp := by constructor <;> simp [Uplink.start, WatcherPhase.todo]
  step s a s' bumps h hstep := by
    obtain ⟨es, htrace, hmove⟩ := step_watchMove hstep
    obtain ⟨hes, htodo⟩ := hmove.broadcasts h.todo
    refine ⟨fun topic htopic => ?_, htodo⟩
    rw [htrace] at htopic
    exact (List.mem_append.mp htopic).elim (h.made topic) (hes topic)
  publish _ _ _ _ h := ⟨h.made, h.todo⟩

end Uplink

/-! ### The two buses -/

/-- The bridge forges nothing towards the site.  With a lawful codec, in every state of the process
from the first connect to the end of `main`: a message that is published on the site broker live or
by replay carries, under its own topic and with one hop more, an envelope that was published on that
topic on the device bus, of a relayed class, and accepted by the hop rules; a reply that is
published there carries one that arrived on the reply topic of a command of the site, without the
`reply_to` of the reply, and goes to where that command wanted it. -/
theorem site_traffic_genuine (S : Setup Bytes ρ) (hc : S.codec.Lawful) {p : Process Bytes}
    (h : (Process.system S).Reachable System.anyStep p) {io : RelayIo Bytes}
    (hio : p.io = some io) :
    (∀ m, io.up.Sent m →
      (∃ payload, (m.topic, payload) ∈ io.up.bus.published ∧ S.Relays id payload m.bytes) ∧
      ∃ cls ∈ uplinkClasses S.engine.appEnabled, locateClass m.topic = some cls) ∧
    ∀ t site bytes, .replied t site bytes ∈ io.down.log →
      ∃ c payload, (c.topic, c.payload) ∈ io.down.bus.published ∧ .recorded c t ∈ io.down.log ∧
        S.Carries c.payload (some site) ∧ .arrived t payload ∈ io.down.log ∧
        S.Relays (·.setReplyTo none) payload bytes := by
  have hup := Process.uplink_invariant (Uplink.kept_books S) h io hio
  have hdown := Process.downlink_invariant (Downlink.kept_books S) h io hio
  have hrouted := Process.downlink_invariant (Downlink.kept_routed hc) h io hio
  exact ⟨fun m hm => hup.genuine hc hm,
    fun t site bytes hreplied => hrouted.reply_genuine hc hdown hreplied⟩

/-- In the sample life one message and one reply reach the site, and they are genuine. -/
theorem site_traffic_genuine_gw01 : ∃ io : RelayIo (Message Unit), io.up.delivered.length = 1 ∧
    io.down.log.filterMap DownlinkEvent.siteTopic = ["site/replies/7"] ∧
    (∀ m ∈ io.up.delivered, ∃ payload, (m.topic, payload) ∈ io.up.bus.published ∧
      Setup.gw01.Relays id payload m.bytes) ∧
    ∀ t site bytes, .replied t site bytes ∈ io.down.log →
      ∃ c : Copy (Message Unit), Setup.gw01.Carries c.payload (some site) := by
  obtain ⟨p, io, hp, hio, hdelivered, hsite, -⟩ := Process.exists_lifeRun
  obtain ⟨hup, hdown⟩ := site_traffic_genuine Setup.gw01 (Codec.plain_lawful Unit) hp hio
  refine ⟨io, hdelivered, hsite, fun m hm => (hup m (Or.inl hm)).1, fun t site bytes hmem => ?_⟩
  obtain ⟨c, -, -, -, hcarries, -⟩ := hdown t site bytes hmem
  exact ⟨c, hcarries⟩

/-- The relay forges nothing towards the device.  With a lawful codec, in every state of the
process: a command that is published on the device bus carries, with one hop more, an envelope that
was published on the site broker on a command topic of this very device and accepted by the hop
rules; it has no `reply_to`, or has one that is exchanged for a topic recorded for it and nothing
else is changed.  And what the watcher publishes there are the rehydration broadcasts of the engine.
What the component reports there about itself is left out. -/
theorem device_traffic_genuine (S : Setup Bytes ρ) (hc : S.codec.Lawful) {p : Process Bytes}
    (h : (Process.system S).Reachable System.anyStep p) {io : RelayIo Bytes}
    (hio : p.io = some io) :
    (∀ c bytes, .commanded c bytes ∈ io.down.log →
      (c.topic, c.payload) ∈ io.down.bus.published ∧ locateClass c.topic = some .cmd ∧
      (levels c.topic)[1]? = some S.engine.device ∧
      (S.Carries c.payload none ∧ S.Relays id c.payload bytes ∨
        ∃ site t, S.Carries c.payload (some site) ∧ .recorded c t ∈ io.down.log ∧
          S.Relays (·.setReplyTo (some t)) c.payload bytes)) ∧
    ∀ topic, .broadcast topic ∈ io.up.trace → topic ∈ S.engine.rehydrationTopics := by
  have hdown := Process.downlink_invariant (Downlink.kept_genuine hc) h io hio
  have hup := Process.uplink_invariant (Uplink.kept_broadcasts S) h io hio
  refine ⟨fun c bytes hcommanded => ?_, hup.made⟩
  obtain ⟨hreceived, hroute, hserves⟩ := hdown.commanded c bytes hcommanded
  have hpub := (hdown.bus.faithful _ c (Bus.mem_log_of_received hreceived)).2.1
  obtain ⟨hcls, hdevice⟩ := route_downlink_iff.mp hroute
  exact ⟨List.mem_of_getElem? hpub, hcls, hdevice, hserves⟩

/-- In the sample life one command reaches the device, and it is one for this device. -/
theorem device_traffic_genuine_gw01 : ∃ io : RelayIo (Message Unit),
    (io.down.log.filterMap DownlinkEvent.commandedCopy).length = 1 ∧
    ∀ c bytes, .commanded c bytes ∈ io.down.log →
      (c.topic, c.payload) ∈ io.down.bus.published ∧ locateClass c.topic = some .cmd := by
  obtain ⟨p, io, hp, hio, -, -, hcommanded⟩ := Process.exists_lifeRun
  have hgenuine := (device_traffic_genuine Setup.gw01 (Codec.plain_lawful Unit) hp hio).1
  refine ⟨io, hcommanded, fun c bytes hmem => ?_⟩
  obtain ⟨hpub, hcls, -⟩ := hgenuine c bytes hmem
  exact ⟨hpub, hcls⟩

end UnsBridge
