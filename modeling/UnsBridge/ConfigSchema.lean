import UnsBridge.ConfigFile

/-!
# The configuration schema and the configuration file

`instanceSchema` is the schema that validates an entry of `component.instances[]`, and the readers
of `ConfigFile` load such an entry.  For each block of an entry its schema agrees with its reader
on what fits the block: the schema takes every number, or every number without fractional part,
where the reader takes an integer literal in the range of its type.

`config_loads_iff` puts the blocks together: which of the entries that the schema accepts the bridge
can load.
-/

namespace UnsBridge

open Schema

/-! ### The schema -/

/-- The schema of `bufferWhileDisconnected`. -/
def bufferSchema : Schema :=
  object [] [("enabled", boolean), ("maxMessages", integer 0 none)] never

/-- The schema of the policy of a class; unknown members are tolerated. -/
def classSchema : Schema :=
  object [] [("enabled", boolean), ("maxRatePerSec", number 0), ("burst", number 0),
    ("bufferWhileDisconnected", bufferSchema)] any

/-- The schema of `uplink.classes`: any class names. -/
def classesSchema : Schema := object [] [] classSchema

/-- The schema of `uplink`. -/
def uplinkSchema : Schema := object [] [("classes", classesSchema)] never

/-- The schema of `reply`. -/
def replySchema : Schema :=
  object [] [("ttlSecs", integer 1 none), ("maxPending", integer 0 none)] never

/-- The schema of `queue`. -/
def queueSchema : Schema :=
  object [] [("data", integer 1 none), ("default", integer 1 none)] never

/-- The schema of `siteBroker`. -/
def siteBrokerSchema : Schema :=
  object ["host", "port", "clientId"]
    [("host", string 1), ("port", integer 1 (some 65535)), ("clientId", string 1),
      ("credentials", object [] [] any), ("lwt", never)] any

/-- `#/$defs/instance`. -/
def instanceSchema : Schema :=
  object ["id", "siteBroker"]
    [("id", string 1), ("siteBroker", siteBrokerSchema), ("uplink", uplinkSchema),
      ("reply", replySchema), ("maxHops", integer 1 none), ("queue", queueSchema)] never

/-! ### What fits a block, and what a block carries -/

/-- Either a member is not written, or its value fits. -/
def Value.MemberFits (v : Value) (name : String) (Fits : Value → Prop) : Prop :=
  ∀ x, v.get name = some x → Fits x

/-- The knobs of a replay buffer fit their types. -/
def DisconnectBufferConfig.Fits (v : Value) : Prop :=
  v.MemberFits "maxMessages" (Value.IsUnsigned 64)

/-- The knobs of a class fit their types. -/
def ClassPolicy.Fits (v : Value) : Prop :=
  v.MemberFits "maxRatePerSec" (Value.IsUnsigned 32) ∧ v.MemberFits "burst" (Value.IsUnsigned 32) ∧
    v.MemberFits "bufferWhileDisconnected" DisconnectBufferConfig.Fits

/-- The knobs of all classes fit their types. -/
def UplinkConfig.Fits (v : Value) : Prop :=
  v.MemberFits "classes" fun classes => ∀ p ∈ classes.members, ClassPolicy.Fits p.2

/-- The knobs of the correlation map fit their types. -/
def ReplyConfig.Fits (v : Value) : Prop :=
  v.MemberFits "ttlSecs" (Value.IsUnsigned 64) ∧ v.MemberFits "maxPending" (Value.IsUnsigned 64)

/-- The queue depths fit their types. -/
def QueueConfig.Fits (v : Value) : Prop :=
  v.MemberFits "data" (Value.IsUnsigned 64) ∧ v.MemberFits "default" (Value.IsUnsigned 64)

/-- The numeric knobs of an entry fit their types: `u32` for the rates and bursts, 64 bits for the
others. -/
def InstanceEntry.Fits (v : Value) : Prop :=
  v.MemberFits "uplink" UplinkConfig.Fits ∧ v.MemberFits "maxHops" (Value.IsUnsigned 64) ∧
    v.MemberFits "queue" QueueConfig.Fits ∧ v.MemberFits "reply" ReplyConfig.Fits

/-- A value is there and carries what is written. -/
def CarriesSome {α : Type} (Carries : Value → α → Prop) (v : Value) (a : Option α) : Prop :=
  ∃ b, a = some b ∧ Carries v b

/-- A boolean is the one that is written. -/
def CarriesBool (v : Value) (b : Bool) : Prop := v = .bool b

/-- The knobs of a replay buffer are those written. -/
structure DisconnectBufferConfig.Carries (v : Value) (cfg : DisconnectBufferConfig) : Prop where
  enabled : Carried CarriesBool true (v.get "enabled") cfg.enabled
  maxMessages : Carried Value.Denotes DEFAULT_EVT_BUFFER_MAX (v.get "maxMessages") cfg.maxMessages

/-- The knobs of a class are those written. -/
structure ClassPolicy.Carries (v : Value) (policy : ClassPolicy) : Prop where
  enabled : Carried (CarriesSome CarriesBool) none (v.get "enabled") policy.enabled
  maxRatePerSec :
    Carried (CarriesSome Value.Denotes) none (v.get "maxRatePerSec") policy.maxRatePerSec
  burst : Carried (CarriesSome Value.Denotes) none (v.get "burst") policy.burst
  bufferWhileDisconnected : Carried (CarriesSome DisconnectBufferConfig.Carries) none
    (v.get "bufferWhileDisconnected") policy.bufferWhileDisconnected

/-- The policies of the classes are those written, one for each name. -/
def ClassPolicy.MapCarries (v : Value) (classes : StrMap ClassPolicy) : Prop :=
  ∀ cls, match v.get cls with
    | none => classes.lookup cls = none
    | some x => CarriesSome ClassPolicy.Carries x (classes.lookup cls)

/-- The policies of an uplink block are those written. -/
structure UplinkConfig.Carries (v : Value) (cfg : UplinkConfig) : Prop where
  classes : Carried ClassPolicy.MapCarries ∅ (v.get "classes") cfg.classes

/-- The knobs of the correlation map are those written. -/
structure ReplyConfig.Carries (v : Value) (cfg : ReplyConfig) : Prop where
  ttlSecs : Carried Value.Denotes DEFAULT_REPLY_TTL_SECS (v.get "ttlSecs") cfg.ttlSecs
  maxPending : Carried Value.Denotes DEFAULT_MAX_PENDING (v.get "maxPending") cfg.maxPending

/-- The queue depths are those written. -/
structure QueueConfig.Carries (v : Value) (cfg : QueueConfig) : Prop where
  data : Carried Value.Denotes DEFAULT_DATA_QUEUE (v.get "data") cfg.data
  defaultDepth : Carried Value.Denotes DEFAULT_QUEUE (v.get "default") cfg.defaultDepth

/-- Everything in an entry is as it is written. -/
structure InstanceEntry.Carries {β : Type} (broker : Value → Option β) (v : Value)
    (entry : InstanceEntry β) : Prop where
  id : v.get "id" = some (.string entry.id)
  siteBroker : Carried (CarriesSome fun x b => broker x = some b) none (v.get "siteBroker")
    entry.siteBroker
  uplink : Carried UplinkConfig.Carries {} (v.get "uplink") entry.uplink
  maxHops : Carried (CarriesSome Value.Denotes) none (v.get "maxHops") entry.maxHops
  queue : Carried QueueConfig.Carries {} (v.get "queue") entry.queue
  reply : Carried ReplyConfig.Carries {} (v.get "reply") entry.reply

/-! ### The blocks agree with their schemas -/

/-- The replay buffer. -/
theorem agrees_buffer : Agrees bufferSchema DisconnectBufferConfig.fromValue
    DisconnectBufferConfig.Fits DisconnectBufferConfig.Carries := by
  intro v hv
  unfold DisconnectBufferConfig.fromValue
  rw [Value.fields_of_object hv]
  have hreads := (agrees_asBool.field hv rfl true).bind fun enabled henabled =>
    ((agrees_asUnsigned _ 64).field hv rfl DEFAULT_EVT_BUFFER_MAX).bind fun maxMessages hmax =>
      Reads.pure (⟨henabled, hmax⟩ : DisconnectBufferConfig.Carries v ⟨enabled, maxMessages⟩)
  exact hreads.congr (by simp [DisconnectBufferConfig.Fits, Value.MemberFits])

/-- The policy of a class. -/
theorem agrees_class :
    Agrees classSchema ClassPolicy.fromValue ClassPolicy.Fits ClassPolicy.Carries := by
  intro v hv
  unfold ClassPolicy.fromValue
  rw [Value.fields_of_object hv]
  have hreads := ((agrees_asBool.option rfl).field hv rfl none).bind fun enabled henabled =>
    (((agrees_asUnsigned (number 0) 32).option rfl).field hv rfl none).bind fun rate hrate =>
      (((agrees_asUnsigned (number 0) 32).option rfl).field hv rfl none).bind fun burst hburst =>
        ((agrees_buffer.option rfl).field hv rfl none).bind fun buffer hbuffer =>
          Reads.pure (⟨henabled, hrate, hburst, hbuffer⟩ :
            ClassPolicy.Carries v ⟨enabled, rate, burst, buffer⟩)
  exact hreads.congr (by simp [ClassPolicy.Fits, Value.MemberFits])

/-- In the map that is filled with the policies of the members, each name has its own policy. -/
theorem mapCarries_of_forall₂ {members : List (String × Value)}
    {policies : List (String × ClassPolicy)}
    (h : List.Forall₂ (fun p q => q.1 = p.1 ∧ ClassPolicy.Carries p.2 q.2) members policies) :
    ClassPolicy.MapCarries (.object members)
      (policies.foldr (fun p classes => classes.insert p.1 p.2) ∅) := by
  induction h with
  | nil => exact fun cls => rfl
  | @cons p q members policies hpq _ ih =>
    obtain ⟨name, x⟩ := p
    obtain ⟨rfl, hpolicy⟩ := hpq
    intro cls
    rw [List.foldr_cons]
    by_cases hcls : cls = q.1
    · subst hcls
      have hget : Value.get (.object ((q.1, x) :: members)) q.1 = some x := List.lookup_cons_self
      rw [hget]
      exact ⟨q.2, Finmap.lookup_insert _, hpolicy⟩
    · have hget : Value.get (.object ((q.1, x) :: members)) cls =
          Value.get (.object members) cls := by
        simp [Value.get, List.lookup_cons, beq_eq_false_iff_ne.mpr hcls]
      rw [hget, Finmap.lookup_insert_of_ne _ hcls]
      exact ih cls

/-- The policies of all classes. -/
theorem agrees_classes : Agrees classesSchema ClassPolicy.mapFromValue
    (fun classes => ∀ p ∈ classes.members, ClassPolicy.Fits p.2) ClassPolicy.MapCarries := by
  intro v hv
  obtain ⟨members, rfl⟩ := exists_members_of_object hv
  have hmembers : ∀ p ∈ members, Reads ((ClassPolicy.fromValue p.2).map (p.1, ·))
      (ClassPolicy.Fits p.2) fun q => q.1 = p.1 ∧ ClassPolicy.Carries p.2 q.2 := by
    intro p hp
    have hclass := agrees_class p.2 (accepts_member_of_object hv hp)
    rw [Option.map_eq_bind]
    exact (hclass.bind fun policy hpolicy => .pure ⟨rfl, hpolicy⟩).congr (iff_of_eq (and_true _))
  have hreads := (Reads.mapM hmembers).bind fun policies hpolicies =>
    Reads.pure (mapCarries_of_forall₂ hpolicies)
  rw [ClassPolicy.mapFromValue, Option.map_eq_bind]
  exact hreads.congr (iff_of_eq (and_true _))

/-- The uplink block. -/
theorem agrees_uplink :
    Agrees uplinkSchema UplinkConfig.fromValue UplinkConfig.Fits UplinkConfig.Carries := by
  intro v hv
  unfold UplinkConfig.fromValue
  rw [Value.fields_of_object hv]
  have hreads := (agrees_classes.field hv rfl ∅).bind fun classes hclasses =>
    Reads.pure (⟨hclasses⟩ : UplinkConfig.Carries v ⟨classes⟩)
  exact hreads.congr (iff_of_eq (and_true _))

/-- The reply block. -/
theorem agrees_reply :
    Agrees replySchema ReplyConfig.fromValue ReplyConfig.Fits ReplyConfig.Carries := by
  intro v hv
  unfold ReplyConfig.fromValue
  rw [Value.fields_of_object hv]
  have hreads := ((agrees_asUnsigned _ 64).field hv rfl DEFAULT_REPLY_TTL_SECS).bind
    fun ttlSecs httl => ((agrees_asUnsigned _ 64).field hv rfl DEFAULT_MAX_PENDING).bind
      fun maxPending hmax => Reads.pure (⟨httl, hmax⟩ : ReplyConfig.Carries v ⟨ttlSecs, maxPending⟩)
  exact hreads.congr (by simp [ReplyConfig.Fits, Value.MemberFits])

/-- The queue depths. -/
theorem agrees_queue :
    Agrees queueSchema QueueConfig.fromValue QueueConfig.Fits QueueConfig.Carries := by
  intro v hv
  unfold QueueConfig.fromValue
  rw [Value.fields_of_object hv]
  have hreads := ((agrees_asUnsigned _ 64).field hv rfl DEFAULT_DATA_QUEUE).bind
    fun data hdata => ((agrees_asUnsigned _ 64).field hv rfl DEFAULT_QUEUE).bind
      fun depth hdepth => Reads.pure (⟨hdata, hdepth⟩ : QueueConfig.Carries v ⟨data, depth⟩)
  exact hreads.congr (by simp [QueueConfig.Fits, Value.MemberFits])

section Entry

variable {β : Type} {broker : Value → Option β}

/-- A broker agrees with its schema if its reader takes whatever the schema accepts. -/
theorem agrees_broker (hbroker : ∀ v, siteBrokerSchema v = true → (broker v).isSome = true) :
    Agrees siteBrokerSchema broker (fun _ => True) fun v b => broker v = some b := fun v hv =>
  { exists_iff := by simpa [Option.isSome_iff_exists] using hbroker v hv
    carries := fun _ h => h }

/-- An entry. -/
theorem agrees_instance (hbroker : ∀ v, siteBrokerSchema v = true → (broker v).isSome = true) :
    Agrees instanceSchema (InstanceEntry.fromValue broker) InstanceEntry.Fits
      (InstanceEntry.Carries broker) := by
  intro v hv
  have hid : Reads ((v.get "id").bind Value.asStr) True
      fun id => v.get "id" = some (.string id) := by
    have hname : (v.get "id").isSome = true := isSome_get_of_object hv (by simp)
    obtain ⟨x, hx⟩ := Option.isSome_iff_exists.mp hname
    rw [hx]
    have hstr := agrees_asStr 1 x (accepts_get_of_object hv hx)
    exact ⟨hstr.exists_iff, fun id hid => congrArg some (hstr.carries id hid)⟩
  unfold InstanceEntry.fromValue
  rw [Value.fields_of_object hv]
  have hreads := hid.bind fun id hid =>
    (((agrees_broker hbroker).option rfl).field hv rfl none).bind fun siteBroker hbroker =>
      (agrees_uplink.field hv rfl {}).bind fun uplink huplink =>
        (((agrees_asUnsigned (integer 1 none) 64).option rfl).field hv rfl none).bind
          fun maxHops hmax => (agrees_queue.field hv rfl {}).bind fun queue hqueue =>
            (agrees_reply.field hv rfl {}).bind fun reply hreply =>
              Reads.pure (⟨hid, hbroker, huplink, hmax, hqueue, hreply⟩ :
                InstanceEntry.Carries broker v ⟨id, siteBroker, uplink, maxHops, queue, reply⟩)
  exact hreads.congr (by simp [InstanceEntry.Fits, Value.MemberFits])

/-! ### Loading an entry -/

/-- The configuration whose only entry of `component.instances` is the given one. -/
def configOf (v : Value) : Value :=
  .object [("component", .object [("instances", .array [v])])]

/-- The bridge loads the entry, selects it, takes its broker, and every knob carries what is
written. -/
def LoadsEntry (broker : Value → Option β) (v : Value) : Prop :=
  ∃ entry b, BridgeConfig.fromValue broker (configOf v) = .ok { instances := [entry] } ∧
    BridgeConfig.siteInstance { instances := [entry] } = .ok entry ∧
    entry.siteMessaging = .ok { localBroker := b, northbound := none } ∧
    entry.Carries broker v

/-- A configuration without a Last-Will loads if its entry is read. -/
theorem fromValue_configOf {v : Value} (hlwt : v.get "lwt" = none) {entry : InstanceEntry β} :
    BridgeConfig.fromValue broker (configOf v) = .ok { instances := [entry] } ↔
      InstanceEntry.fromValue broker v = some entry := by
  have hreject : BridgeConfig.rejectConfiguredLwt (configOf v) = .ok () := by
    simp [BridgeConfig.rejectConfiguredLwt, configOf, Value.asArray, hlwt]
  have hcomponent : ((configOf v).fields ["component"]).bind (fun field =>
      (field "component").bind (BridgeConfig.componentFromValue broker)) =
        (InstanceEntry.fromValue broker v).map fun entry => { instances := [entry] } := by
    change ((some [v]).bind (·.mapM (InstanceEntry.fromValue broker))).bind _ = _
    cases hentry : InstanceEntry.fromValue broker v <;> simp [hentry]
  have hload : ∀ r, (((configOf v).fields ["component"]).bind fun field =>
      (field "component").bind (BridgeConfig.componentFromValue broker)) = r →
        BridgeConfig.fromValue broker (configOf v) = r.elim (.error .parsing) .ok := by
    rintro r rfl
    rw [BridgeConfig.fromValue, hreject]
    cases ((configOf v).fields ["component"]).bind fun field =>
      (field "component").bind (BridgeConfig.componentFromValue broker) with
    | none => rfl
    | some config => rfl
  rw [hload _ hcomponent]
  cases InstanceEntry.fromValue broker v with
  | none => simp
  | some entry' => simp

/-- The only entry is selected if it has a broker. -/
theorem siteInstance_singleton {entry : InstanceEntry β} (h : entry.siteBroker.isSome = true) :
    BridgeConfig.siteInstance { instances := [entry] } = .ok entry := by
  by_cases hid : entry.id = SITE_INSTANCE_ID <;> simp [BridgeConfig.siteInstance, hid, h]

end Entry

/-- Among the entries that the schema accepts, the bridge loads exactly those whose numeric knobs
are integer literals in the ranges of their types. -/
theorem config_loads_iff {β : Type} (broker : Value → Option β)
    (hbroker : ∀ v, siteBrokerSchema v = true → (broker v).isSome = true) (v : Value)
    (hv : instanceSchema v = true) : LoadsEntry broker v ↔ InstanceEntry.Fits v := by
  have hlwt : v.get "lwt" = none := by
    refine Option.eq_none_iff_forall_ne_some.mpr fun x hx => ?_
    have hnever : never x = true := accepts_get_of_object hv hx
    cases hnever
  have hreads := agrees_instance hbroker v hv
  rw [← hreads.exists_iff]
  constructor
  · rintro ⟨entry, b, hload, -⟩
    exact ⟨entry, (fromValue_configOf hlwt).mp hload⟩
  · rintro ⟨entry, hentry⟩
    have hcarries := hreads.carries entry hentry
    have hbroker : ∃ b, entry.siteBroker = some b := by
      have hname : (v.get "siteBroker").isSome = true := isSome_get_of_object hv (by simp)
      obtain ⟨x, hx⟩ := Option.isSome_iff_exists.mp hname
      have hcarried := hcarries.siteBroker
      rw [hx] at hcarried
      obtain ⟨b, hb, -⟩ := hcarried
      exact ⟨b, hb⟩
    obtain ⟨b, hb⟩ := hbroker
    refine ⟨entry, b, (fromValue_configOf hlwt).mpr hentry, ?_, ?_, hcarries⟩
    · exact siteInstance_singleton (by simp [hb])
    · simp [InstanceEntry.siteMessaging, hb]

/-! ### Two sample entries -/

/-- A reader of brokers that keeps the host. -/
def readHost (v : Value) : Option String := (v.get "host").bind Value.asStr

/-- The reader takes whatever the schema accepts. -/
theorem isSome_readHost {v : Value} (hv : siteBrokerSchema v = true) :
    (readHost v).isSome = true := by
  have hname : (v.get "host").isSome = true := isSome_get_of_object hv (by simp)
  obtain ⟨x, hx⟩ := Option.isSome_iff_exists.mp hname
  have hstr := agrees_asStr 1 x (accepts_get_of_object hv hx)
  rw [readHost, hx, Option.isSome_iff_exists]
  exact hstr.exists_iff.mpr trivial

/-- An entry with a rate cap for the class `data`. -/
def cappedEntry (rate : Number) : Value :=
  .object [("id", .string "site"),
    ("siteBroker", .object [("host", .string "site.local"), ("port", .number (.posInt 8883)),
      ("clientId", .string "uns-bridge-gw-01")]),
    ("uplink", .object [("classes",
      .object [("data", .object [("maxRatePerSec", .number rate)])])])]

/-- The schema accepts a rate cap of two and a half messages per second, and the bridge does not
load it. -/
theorem config_rejects_fraction : ¬ ∀ v, instanceSchema v = true → LoadsEntry readHost v := by
  intro hall
  obtain ⟨entry, b, hload, -⟩ := hall (cappedEntry (.float ⟨5, 2, by decide, by decide⟩)) rfl
  cases hload

/-- The bridge loads a rate cap of five messages per second. -/
theorem config_loads_rate : LoadsEntry readHost (cappedEntry (.posInt 5)) := by
  refine (config_loads_iff readHost (fun _ => isSome_readHost) _ rfl).mpr ⟨?_, ?_, ?_, ?_⟩
  · rintro uplink ⟨⟩ classes ⟨⟩ p hp
    obtain rfl := List.mem_singleton.mp hp
    refine ⟨?_, ?_, ?_⟩
    · rintro x ⟨⟩
      exact ⟨5, rfl, by decide⟩
    · rintro x ⟨⟩
    · rintro x ⟨⟩
  · rintro x ⟨⟩
  · rintro x ⟨⟩
  · rintro x ⟨⟩

end UnsBridge
