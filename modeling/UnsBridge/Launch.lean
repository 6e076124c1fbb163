import UnsBridge.Capacity
import UnsBridge.ConfigFile
import UnsBridge.Provenance

/-!
# From the configuration to the wire

`main` reads the configuration that the runtime has resolved, picks the site entry, builds the relay
engine from it and hands its knobs to `RelayIo::start`.  `launch` is that part of `main`, up to the
first connect; what the runtime and its library give to it is a parameter.

`launched_obeys` follows the knobs to what they are there for: in every state of a process that was
launched, what is published on the two brokers and what is held obeys the configuration.
-/

namespace UnsBridge

open RelayEngine Transition

variable {Bytes ρ β : Type}

/-- `MqttLastWill`, with its quality of service left out. -/
structure MqttLastWill (Bytes : Type) where
  topic : String
  payload : Bytes

/-- What `main` gets from the runtime: the raw configuration, the device token, whether a transport
has been resolved, the codec and the messages that its message builder makes, and the topic and
payload of the Last-Will, which may fail to be built. -/
structure Runtime (Bytes ρ β : Type) where
  raw : Value
  broker : Value → Option β
  device : String
  hasProvider : Bool
  codec : Codec Bytes ρ
  notification : String → Message ρ
  stateTopic : Option String
  statePayload : Option Bytes

/-- Why `main` returns before it connects. -/
inductive LaunchError where
  | config (e : ConfigError)
  /-- `RelayEngine::new` refuses the device token. -/
  | deviceToken
  /-- The runtime has resolved no transport. -/
  | noProvider
  /-- The topic of the Last-Will cannot be built. -/
  | lastWillTopic
  /-- The payload of the Last-Will cannot be built. -/
  | lastWillPayload
  deriving DecidableEq, Repr

/-- What `main` connects and starts with. -/
structure Launch (Bytes ρ β : Type) where
  setup : Setup Bytes ρ
  siteCfg : MessagingConfig β
  siteLastWill : MqttLastWill Bytes

/-- `InstanceEntry::effective_max_hops`. -/
def InstanceEntry.effectiveMaxHops (entry : InstanceEntry β) : ℕ :=
  entry.maxHops.getD DEFAULT_MAX_HOPS

/-- `main`, up to `connect_site_with_retry`. -/
def launch (r : Runtime Bytes ρ β) : Except LaunchError (Launch Bytes ρ β) :=
  match (BridgeConfig.fromValue r.broker r.raw).bind BridgeConfig.siteInstance with
  | .error e => .error (.config e)
  | .ok siteEntry =>
    let maxHops := siteEntry.effectiveMaxHops
    match hengine : RelayEngine.new r.device maxHops siteEntry.uplink.appEnabled with
    | none => .error .deviceToken
    | some engine =>
      if r.hasProvider = false then .error .noProvider
      else
        match siteEntry.siteMessaging, r.stateTopic, r.statePayload with
        | .error e, _, _ => .error (.config e)
        | .ok _, none, _ => .error .lastWillTopic
        | .ok _, some _, none => .error .lastWillPayload
        | .ok siteCfg, some topic, some payload =>
          .ok
            { setup :=
                { engine
                  engine_new := ⟨_, _, _, hengine⟩
                  codec := r.codec
                  notification := r.notification
                  queue := siteEntry.queue
                  reply := siteEntry.reply
                  uplink := siteEntry.uplink }
              siteCfg
              siteLastWill := { topic, payload } }

/-- The launch has taken an entry of the configuration as the site entry, with all its knobs. -/
structure Launch.Takes (r : Runtime Bytes ρ β) (l : Launch Bytes ρ β)
    (siteEntry : InstanceEntry β) : Prop where
  selected : (BridgeConfig.fromValue r.broker r.raw).bind BridgeConfig.siteInstance = .ok siteEntry
  engine : RelayEngine.new r.device siteEntry.effectiveMaxHops siteEntry.uplink.appEnabled =
    some l.setup.engine
  provider : r.hasProvider = true
  broker : siteEntry.siteBroker = some l.siteCfg.localBroker
  topic : r.stateTopic = some l.siteLastWill.topic
  payload : r.statePayload = some l.siteLastWill.payload
  codec : l.setup.codec = r.codec
  queue : l.setup.queue = siteEntry.queue
  reply : l.setup.reply = siteEntry.reply
  uplink : l.setup.uplink = siteEntry.uplink

/-- The connection of an entry is that of its broker. -/
theorem InstanceEntry.siteMessaging_eq_ok_iff {entry : InstanceEntry β} {cfg : MessagingConfig β} :
    entry.siteMessaging = .ok cfg ↔
      entry.siteBroker = some cfg.localBroker ∧ cfg.northbound = none := by
  unfold siteMessaging
  obtain ⟨localBroker, northbound⟩ := cfg
  cases entry.siteBroker with
  | none => simp
  | some broker => simp [eq_comm]

/-- A launch takes the site entry of the configuration. -/
theorem exists_takes_of_launch {r : Runtime Bytes ρ β} {l : Launch Bytes ρ β}
    (h : launch r = .ok l) : ∃ siteEntry, l.Takes r siteEntry := by
  unfold launch at h
  split at h
  · cases h
  · rename_i siteEntry hselected
    refine ⟨siteEntry, ?_⟩
    simp only at h
    split at h
    · cases h
    · rename_i engine hengine
      split at h
      · cases h
      · rename_i hprovider
        split at h
        · cases h
        · cases h
        · cases h
        · rename_i siteCfg topic payload hsite htopic hpayload
          obtain rfl := Except.ok.inj h
          have hbroker := (InstanceEntry.siteMessaging_eq_ok_iff.mp hsite).1
          exact ⟨hselected, hengine, by simpa using hprovider, hbroker, htopic, hpayload, rfl, rfl,
            rfl, rfl⟩

/-! ### The knobs -/

/-- Whether the configuration lets a class through: every class but `app` unless it is switched off,
and `app` if it is switched on. -/
def UplinkConfig.relays (cfg : UplinkConfig) (cls : UnsClass) : Bool :=
  cls ≠ .cmd && ((cfg.classes.lookup cls.token).bind ClassPolicy.enabled).getD (cls ≠ .app)

/-- The number of events that the configuration lets the bridge buffer. -/
def UplinkConfig.evtRoom (cfg : UplinkConfig) : ℕ :=
  ((cfg.classes.lookup "evt").bind ClassPolicy.bufferWhileDisconnected).elim DEFAULT_EVT_BUFFER_MAX
    fun buffer => if buffer.enabled then buffer.maxMessages else 0

/-- The policy admits the classes that the configuration lets through. -/
theorem UplinkPolicy.classEnabled_fromConfig {ι : Type} (cfg : UplinkConfig) (cls : UnsClass) :
    (fromConfig cfg : UplinkPolicy ι).classEnabled cls = cfg.relays cls := by
  cases cls <;>
    simp [classEnabled, fromConfig, classState, classIndex, policyClass, UplinkConfig.relays]

/-- The policy buffers as many events as the configuration lets it. -/
theorem UplinkPolicy.evtBufferMax_fromConfig {ι : Type} (cfg : UplinkConfig) :
    (fromConfig cfg : UplinkPolicy ι).evtBufferMax = cfg.evtRoom := by
  have htoken : UnsClass.evt.token = "evt" := rfl
  unfold fromConfig UplinkConfig.evtRoom
  rw [← htoken]
  cases (cfg.classes.lookup UnsClass.evt.token).bind ClassPolicy.bufferWhileDisconnected <;> rfl

/-- The bytes carry an envelope with a hop list that ends with the given hop and is no longer than
the cap. -/
def Codec.HopsWithin (codec : Codec Bytes ρ) (hopId : String) (cap : ℕ) (bytes : Bytes) : Prop :=
  ∃ out, codec.fromSlice bytes = some out ∧ out.relayHops.length ≤ cap ∧
    out.relayHops.getLast? = some (.string hopId)

/-- What the relay has relayed stays within its cap. -/
theorem Setup.Relays.hopsWithin [Inhabited ρ] {S : Setup Bytes ρ} {change : Message ρ → Message ρ}
    {payload bytes : Bytes} (h : S.Relays change payload bytes)
    (hchange : ∀ m, (change m).relayHops = m.relayHops) :
    S.codec.HopsWithin S.engine.hopId S.engine.maxHops bytes := by
  obtain ⟨m, out, -, haccepts, hdecode, hstamped⟩ := h
  obtain rfl := stamped_iff.mp hstamped
  refine ⟨_, hdecode, ?_, ?_⟩
  · rw [Message.relayHops_setRelayHops, hchange, List.length_append]
    exact haccepts.2
  · simp

/-- The ttl of the correlation map does not change. -/
theorem Downlink.kept_ttl [Inhabited ρ] (S : Setup Bytes ρ) :
    Kept S fun s => s.correlator.ttl = S.reply.ttl where
  start := rfl
  step s a s' bumps h hstep := by
    have hsame : s'.correlator.ttl = s.correlator.ttl := by cases step_move hstep <;> rfl
    exact hsame.trans h
  publish _ _ _ _ h := h
  cut _ _ _ _ h _ := h

/-- What is on the wire and in memory obeys the knobs of an entry: the classes whose pumps it lets
publish, its hop cap, the time and the room for replies, and the room for events and in the queues
of the subscriptions. -/
structure RelayIo.Obeys (r : Runtime Bytes ρ β) (S : Setup Bytes ρ) (siteEntry : InstanceEntry β)
    (io : RelayIo Bytes) : Prop where
  classes : ∀ m, io.up.Sent m → siteEntry.uplink.relays m.cls = true
  uplinked : ∀ m, io.up.Sent m →
    r.codec.HopsWithin (r.device ++ "/" ++ COMPONENT_TOKEN) siteEntry.effectiveMaxHops m.bytes
  commanded : ∀ c bytes, .commanded c bytes ∈ io.down.log →
    r.codec.HopsWithin (r.device ++ "/" ++ COMPONENT_TOKEN) siteEntry.effectiveMaxHops bytes
  replied : ∀ t site bytes, .replied t site bytes ∈ io.down.log →
    r.codec.HopsWithin (r.device ++ "/" ++ COMPONENT_TOKEN) siteEntry.effectiveMaxHops bytes
  events : io.up.policy.evtBuffer.length ≤ siteEntry.uplink.evtRoom
  replies : io.down.correlator.pending.length ≤ max siteEntry.reply.maxPending 1
  deadlines : ∀ relayed mint now bytes evicted correlator,
    io.down.correlator.rewriteDownlink S.codec relayed mint now =
      (some (.rewritten bytes mint evicted), correlator) →
    ∃ p, correlator.pending.getLast? = some (mint, p) ∧ p.deadline = now + siteEntry.reply.ttl
  uplinkQueues : ∀ i cls, S.pumpClass i = some cls → (io.up.bus.queues i).length ≤
    max (if cls = .data then siteEntry.queue.data else siteEntry.queue.defaultDepth) 1
  downlinkQueues : ∀ i, (io.down.bus.queues i).length ≤ max siteEntry.queue.defaultDepth 1

variable [Inhabited ρ] {r : Runtime Bytes ρ β} {l : Launch Bytes ρ β} {siteEntry : InstanceEntry β}

/-- A launched process obeys the entry that it has taken. -/
theorem Launch.Takes.obeys (h : l.Takes r siteEntry) (hc : r.codec.Lawful) {p : Process Bytes}
    (hp : (Process.system l.setup).Reachable System.anyStep p) {io : RelayIo Bytes}
    (hio : p.io = some io) : io.Obeys r l.setup siteEntry := by
  have hlawful : l.setup.codec.Lawful := h.codec ▸ hc
  obtain ⟨-, -, hmaxHops, -, hhopId, -⟩ := new_eq_some h.engine
  obtain ⟨hbooks, hbounded⟩ := Process.uplink_invariant (Uplink.kept_bounded l.setup) hp io hio
  have hdown := Process.downlink_invariant (Downlink.kept_bounded l.setup) hp io hio
  have hdownBooks := Process.downlink_invariant (Downlink.kept_books l.setup) hp io hio
  have hgenuine := Process.downlink_invariant (Downlink.kept_genuine hlawful) hp io hio
  have hrouted := Process.downlink_invariant (Downlink.kept_routed hlawful) hp io hio
  have httl := Process.downlink_invariant (Downlink.kept_ttl l.setup) hp io hio
  have hwithin : ∀ {change : Message ρ → Message ρ} {payload bytes : Bytes},
      l.setup.Relays change payload bytes → (∀ m, (change m).relayHops = m.relayHops) →
        r.codec.HopsWithin (r.device ++ "/" ++ COMPONENT_TOKEN) siteEntry.effectiveMaxHops bytes :=
    fun hrelays hchange => h.codec ▸ hhopId ▸ hmaxHops ▸ hrelays.hopsWithin hchange
  refine ⟨fun m hm => ?_, fun m hm => ?_, fun c bytes hcommanded => ?_,
    fun t site bytes hreplied => ?_, ?_, ?_,
    fun relayed mint now bytes evicted correlator hcall => ?_, fun i cls hi => ?_, fun i => ?_⟩
  · rw [← UplinkPolicy.classEnabled_fromConfig (ι := Forwarded Bytes), ← h.uplink]
    exact hbooks.sent_enabled hm
  · obtain ⟨payload, -, hrelays⟩ := (hbooks.genuine hlawful hm).1
    exact hwithin hrelays fun _ => rfl
  · obtain ⟨-, -, ⟨-, hrelays⟩ | ⟨site, t, -, -, hrelays⟩⟩ := hgenuine.commanded c bytes hcommanded
    · exact hwithin hrelays fun _ => rfl
    · exact hwithin hrelays fun _ => rfl
  · obtain ⟨c, payload, -, -, -, -, hrelays⟩ :=
      hrouted.reply_genuine hlawful hdownBooks hreplied
    exact hwithin hrelays fun _ => rfl
  · rw [← UplinkPolicy.evtBufferMax_fromConfig (ι := Forwarded Bytes), ← h.uplink]
    exact hbounded.buffer
  · rw [← h.reply, ← hdown.maxPending]
    exact hdown.pending
  · have hspec := io.down.correlator.rewriteDownlink_spec l.setup.codec relayed mint now
    rw [hcall] at hspec
    cases hspec
    exact ⟨_, List.getLast?_concat, by rw [httl, h.reply]⟩
  · have hroom := hbounded.bus i
    obtain ⟨⟨cls', filter⟩, hentry, rfl⟩ := Option.map_eq_some_iff.mp hi
    rw [← h.queue]
    simpa [Setup.deviceSubscriptions, hentry, Subscription.room] using hroom
  · have hroom := hdown.bus i
    rw [← h.queue]
    cases hfilter : l.setup.engine.downlinkFilters[i]? with
    | none =>
      simp [Setup.siteSubscriptions, hfilter] at hroom
      simp [hroom]
    | some filter => simpa [Setup.siteSubscriptions, hfilter, Subscription.room] using hroom

omit [Inhabited ρ] in
/-- A launch succeeds if the configuration has a site entry with a broker, the device token is valid
and the runtime gives what it should. -/
theorem exists_launch (hselected : (BridgeConfig.fromValue r.broker r.raw).bind
      BridgeConfig.siteInstance = .ok siteEntry) (hdevice : validToken r.device = true)
    (hprovider : r.hasProvider = true) (hbroker : siteEntry.siteBroker.isSome = true)
    (htopic : r.stateTopic.isSome = true) (hpayload : r.statePayload.isSome = true) :
    ∃ l, launch r = .ok l := by
  obtain ⟨broker, hbroker⟩ := Option.isSome_iff_exists.mp hbroker
  obtain ⟨topic, htopic⟩ := Option.isSome_iff_exists.mp htopic
  obtain ⟨payload, hpayload⟩ := Option.isSome_iff_exists.mp hpayload
  have hsite : siteEntry.siteMessaging = .ok { localBroker := broker, northbound := none } :=
    InstanceEntry.siteMessaging_eq_ok_iff.mpr ⟨hbroker, rfl⟩
  simp only [launch, hselected]
  split
  · rename_i hnone
    simp [RelayEngine.new, hdevice] at hnone
  · simp only [hprovider, hsite, htopic, hpayload]
    exact ⟨_, rfl⟩

/-- The configuration is obeyed from the first connect to the end of `main`.  With a lawful codec,
`main` gets to its first connect exactly if the configuration loads and has a site entry with a
broker, the device token is valid, and the runtime has a transport and builds the Last-Will.  It
then connects to the broker of that entry, and in every state of the process what is on the wire and
in memory obeys the knobs of the entry.  A message has the class of the pump that publishes it. -/
theorem configuration_obeyed (r : Runtime Bytes ρ β) (hc : r.codec.Lawful) :
    ((∃ l, launch r = .ok l) ↔ ∃ siteEntry,
      (BridgeConfig.fromValue r.broker r.raw).bind BridgeConfig.siteInstance = .ok siteEntry ∧
        validToken r.device = true ∧ r.hasProvider = true ∧
        siteEntry.siteBroker.isSome = true ∧ r.stateTopic.isSome = true ∧
        r.statePayload.isSome = true) ∧
    ∀ l, launch r = .ok l → ∃ siteEntry,
      (BridgeConfig.fromValue r.broker r.raw).bind BridgeConfig.siteInstance = .ok siteEntry ∧
        siteEntry.siteBroker = some l.siteCfg.localBroker ∧
        ∀ p, (Process.system l.setup).Reachable System.anyStep p → ∀ io, p.io = some io →
          io.Obeys r l.setup siteEntry := by
  refine ⟨⟨?_, ?_⟩, fun l hl => ?_⟩
  · rintro ⟨l, hl⟩
    obtain ⟨siteEntry, htakes⟩ := exists_takes_of_launch hl
    exact ⟨siteEntry, htakes.selected, (new_eq_some htakes.engine).1, htakes.provider,
      by simp [htakes.broker], by simp [htakes.topic], by simp [htakes.payload]⟩
  · rintro ⟨siteEntry, hselected, hdevice, hprovider, hbroker, htopic, hpayload⟩
    exact exists_launch hselected hdevice hprovider hbroker htopic hpayload
  · obtain ⟨siteEntry, htakes⟩ := exists_takes_of_launch hl
    exact ⟨siteEntry, htakes.selected, htakes.broker, fun p hp io hio => htakes.obeys hc hp hio⟩

/-- A runtime whose configuration switches the class `log` off and lowers the hop cap. -/
def runtimeGw01 : Runtime (Message Unit) Unit String where
  raw := .object [("component", .object [("instances", .array [.object [("id", .string "site"),
    ("siteBroker", .object [("host", .string "site.local")]), ("maxHops", .number (.posInt 2)),
    ("uplink", .object [("classes",
      .object [("log", .object [("enabled", .bool false)])])])]])])]
  broker v := (v.get "host").bind Value.asStr
  device := "gw-01"
  hasProvider := true
  codec := .plain Unit
  notification _ := .sample none
  stateTopic := some "ecv1/gw-01/uns-bridge/state"
  statePayload := some (.sample none)

/-- The number of messages that reach the site in the sample life of a launched process. -/
def Runtime.sampleLife (r : Runtime (Message Unit) Unit β) : Option ℕ :=
  match launch r with
  | .error _ => none
  | .ok l => ((Process.system l.setup).exec (fun _ _ => true) .connecting Process.lifeRun).bind
      fun p => p.io.map fun io => io.up.delivered.length

/-- It launches, and the message that reaches the site in its sample life has been relayed within
the cap. -/
theorem configuration_obeyed_gw01 : ∃ (l : Launch (Message Unit) Unit String)
    (siteEntry : InstanceEntry String) (io : RelayIo (Message Unit)), launch runtimeGw01 = .ok l ∧
    siteEntry.effectiveMaxHops = 2 ∧ siteEntry.uplink.relays .log = false ∧
    io.up.delivered.length = 1 ∧ io.Obeys runtimeGw01 l.setup siteEntry := by
  have hlife : runtimeGw01.sampleLife = some 1 := by decide +kernel
  have hknobs : ((BridgeConfig.fromValue runtimeGw01.broker runtimeGw01.raw).bind
      BridgeConfig.siteInstance).toOption.map
        (fun siteEntry => (siteEntry.effectiveMaxHops, siteEntry.uplink.relays .log)) =
          some (2, false) := by
    decide +kernel
  unfold Runtime.sampleLife at hlife
  split at hlife
  · cases hlife
  · rename_i l hl
    obtain ⟨p, hexec, hseen⟩ := Option.bind_eq_some_iff.mp hlife
    obtain ⟨io, hio, hdelivered⟩ := Option.map_eq_some_iff.mp hseen
    obtain ⟨p', hp, rfl⟩ := System.exists_reachable_of_exec (M := Process.system l.setup)
      (P := System.anyStep) (fun _ _ => true) (fun _ _ _ => trivial) (.init rfl) Process.lifeRun id
      (congrArg (Option.map id) hexec)
    obtain ⟨siteEntry, hselected, -, hobeys⟩ :=
      (configuration_obeyed runtimeGw01 (Codec.plain_lawful Unit)).2 l hl
    rw [hselected] at hknobs
    obtain ⟨hmaxHops, hlog⟩ := Prod.mk.inj (Option.some.inj hknobs)
    exact ⟨l, siteEntry, io, hl, hmaxHops, hlog, hdelivered, hobeys _ hp io hio⟩

end UnsBridge
