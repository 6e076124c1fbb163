import UnsBridge.Config
import UnsBridge.JsonSchema

/-!
# The configuration file of the bridge

`BridgeConfig.fromValue` reads the `component.instances[]` entries of the effective configuration,
`siteInstance` selects the entry of the site broker, and `siteMessaging` takes its broker.  Members
that are not known are ignored, and a configured Last-Will is refused.

The endpoint of a broker is a type `β` of the library with a reader of its own; both are parameters.
The texts of the errors are not kept.
-/

namespace UnsBridge

/-- `SITE_INSTANCE_ID`. -/
def SITE_INSTANCE_ID : String := "site"

/-- Why a configuration is refused. -/
inductive ConfigError where
  /-- An entry configures the Last-Will. -/
  | configuredLwt (id : String)
  /-- The reader fails. -/
  | parsing
  /-- The entry has no broker. -/
  | noSiteBroker (id : String)
  /-- Several entries have a broker, and none is the site entry by its name. -/
  | severalSiteBrokers
  /-- No entry qualifies. -/
  | noSiteEntry
  deriving DecidableEq, Repr

/-! ### The typed blocks -/

/-- The reader of `DisconnectBufferConfig`. -/
def DisconnectBufferConfig.fromValue (v : Value) : Option DisconnectBufferConfig := do
  let field ← v.fields ["enabled", "maxMessages"]
  let enabled ← readField Value.asBool true (field "enabled")
  let maxMessages ← readField (Value.asUnsigned 64) DEFAULT_EVT_BUFFER_MAX (field "maxMessages")
  return { enabled, maxMessages }

/-- The reader of `ClassPolicy`. -/
def ClassPolicy.fromValue (v : Value) : Option ClassPolicy := do
  let field ← v.fields ["enabled", "maxRatePerSec", "burst", "bufferWhileDisconnected"]
  let enabled ← readField (readOption Value.asBool) none (field "enabled")
  let maxRatePerSec ← readField (readOption (Value.asUnsigned 32)) none (field "maxRatePerSec")
  let burst ← readField (readOption (Value.asUnsigned 32)) none (field "burst")
  let bufferWhileDisconnected ←
    readField (readOption DisconnectBufferConfig.fromValue) none (field "bufferWhileDisconnected")
  return { enabled, maxRatePerSec, burst, bufferWhileDisconnected }

/-- The reader of the class policies: all members of an object, by name.  (The names of the members
are different from each other.) -/
def ClassPolicy.mapFromValue : Value → Option (StrMap ClassPolicy)
  | .object members => (members.mapM fun p => (ClassPolicy.fromValue p.2).map (p.1, ·)).map
      fun policies => policies.foldr (fun p classes => classes.insert p.1 p.2) ∅
  | _ => none

/-- The reader of `UplinkConfig`. -/
def UplinkConfig.fromValue (v : Value) : Option UplinkConfig := do
  let field ← v.fields ["classes"]
  let classes ← readField ClassPolicy.mapFromValue ∅ (field "classes")
  return { classes }

/-- The reader of `ReplyConfig`. -/
def ReplyConfig.fromValue (v : Value) : Option ReplyConfig := do
  let field ← v.fields ["ttlSecs", "maxPending"]
  let ttlSecs ← readField (Value.asUnsigned 64) DEFAULT_REPLY_TTL_SECS (field "ttlSecs")
  let maxPending ← readField (Value.asUnsigned 64) DEFAULT_MAX_PENDING (field "maxPending")
  return { ttlSecs, maxPending }

/-- The reader of `QueueConfig`. -/
def QueueConfig.fromValue (v : Value) : Option QueueConfig := do
  let field ← v.fields ["data", "default"]
  let data ← readField (Value.asUnsigned 64) DEFAULT_DATA_QUEUE (field "data")
  let defaultDepth ← readField (Value.asUnsigned 64) DEFAULT_QUEUE (field "default")
  return { data, defaultDepth }

/-! ### The entries -/

/-- `InstanceEntry`. -/
structure InstanceEntry (β : Type) where
  id : String
  siteBroker : Option β
  uplink : UplinkConfig
  maxHops : Option ℕ
  queue : QueueConfig
  reply : ReplyConfig

/-- `MessagingConfig`: the connection of a provider, here with the site broker in its local slot. -/
structure MessagingConfig (β : Type) where
  localBroker : β
  northbound : Option β

/-- `BridgeConfig`, with its component section. -/
structure BridgeConfig (β : Type) where
  instances : List (InstanceEntry β)

variable {β : Type}

/-- The reader of `InstanceEntry`, over that of the broker. -/
def InstanceEntry.fromValue (broker : Value → Option β) (v : Value) :
    Option (InstanceEntry β) := do
  let field ← v.fields ["id", "siteBroker", "uplink", "maxHops", "queue", "reply"]
  let id ← (field "id").bind Value.asStr
  let siteBroker ← readField (readOption broker) none (field "siteBroker")
  let uplink ← readField UplinkConfig.fromValue {} (field "uplink")
  let maxHops ← readField (readOption (Value.asUnsigned 64)) none (field "maxHops")
  let queue ← readField QueueConfig.fromValue {} (field "queue")
  let reply ← readField ReplyConfig.fromValue {} (field "reply")
  return { id, siteBroker, uplink, maxHops, queue, reply }

/-- `InstanceEntry::site_messaging`. -/
def InstanceEntry.siteMessaging (entry : InstanceEntry β) :
    Except ConfigError (MessagingConfig β) :=
  match entry.siteBroker with
  | some broker => .ok { localBroker := broker, northbound := none }
  | none => .error (.noSiteBroker entry.id)

namespace BridgeConfig

/-- `BridgeConfig::reject_configured_lwt`. -/
def rejectConfiguredLwt (value : Value) : Except ConfigError Unit :=
  match ((value.get "component").bind fun component => component.get "instances").bind
    Value.asArray with
  | none => .ok ()
  | some instances =>
    match instances.find? fun entry => (entry.get "lwt").isSome with
    | some entry =>
      let id := ((entry.get "id").bind Value.asStr).getD "<missing id>"
      .error (.configuredLwt id)
    | none => .ok ()

/-- The reader of the component section. -/
def componentFromValue (broker : Value → Option β) (v : Value) : Option (BridgeConfig β) := do
  let field ← v.fields ["instances"]
  let instances ← readField
    (fun v => v.asArray.bind fun items => items.mapM (InstanceEntry.fromValue broker)) []
    (field "instances")
  return { instances }

/-- `BridgeConfig::from_value`. -/
def fromValue (broker : Value → Option β) (value : Value) :
    Except ConfigError (BridgeConfig β) := do
  rejectConfiguredLwt value
  match (value.fields ["component"]).bind fun field =>
    (field "component").bind (componentFromValue broker) with
  | some config => .ok config
  | none => .error .parsing

/-- `BridgeConfig::site_instance`. -/
def siteInstance (config : BridgeConfig β) : Except ConfigError (InstanceEntry β) :=
  match config.instances.find? fun entry => entry.id = SITE_INSTANCE_ID with
  | some entry => .ok entry
  | none =>
    match config.instances.filter fun entry => entry.siteBroker.isSome with
    | [entry] => .ok entry
    | _ :: _ :: _ => .error .severalSiteBrokers
    | [] => .error .noSiteEntry

end BridgeConfig

end UnsBridge
