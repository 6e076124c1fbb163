import UnsBridge.Envelope
import UnsBridge.Uns

/-!
# The relay decision engine

`RelayEngine.decide` says whether a message seen on a topic crosses the bridge and as what bytes:
the class of the topic must flow in the direction, a downlink command must be addressed to the
bridge's own device, and the envelope must pass the hop rules, which append the bridge's hop id to
`tags._relay`.  The engine holds the subscription filters of both directions; `RelayEngine.new`
builds them for a device token.

The specification lemmas `decide_eq_forward_iff` and `stampHop_eq_ok_iff` say all that the other
modules use of these functions.
-/

namespace UnsBridge

open TopicFilter

/-- `RELAY_TAG`: the envelope tag that carries the relay hop list. -/
def RELAY_TAG : String := "_relay"

/-- `DEFAULT_MAX_HOPS`. -/
def DEFAULT_MAX_HOPS : ℕ := 4

/-- `COMPONENT_TOKEN`: the bridge's own component token. -/
def COMPONENT_TOKEN : String := "uns-bridge"

/-- `REHYDRATION_CMDS`: the two broadcast commands, in publish order. -/
def REHYDRATION_CMDS : List String := ["republish-state", "republish-cfg"]

/-- `UPLINK_CLASSES`: the classes that are always relayed; `app` is opt-in. -/
def UPLINK_CLASSES : List UnsClass := [.state, .cfg, .evt, .metric, .data, .log]

/-- Which way a message crosses the bridge. -/
inductive Direction where
  /-- Device bus to site broker. -/
  | uplink
  /-- Site broker to device bus. -/
  | downlink
  deriving DecidableEq, Repr

/-- Why a message was not relayed. -/
inductive DropReason where
  | ownEcho
  | maxHopsExceeded
  | notUnsTopic
  | classNotRelayed
  | notOwnDevice
  | malformedEnvelope
  deriving DecidableEq, Repr

/-- The verdict on one would-be relay. -/
inductive RelayDecision (Bytes : Type) where
  | forward (bytes : Bytes)
  | drop (reason : DropReason)
  deriving DecidableEq, Repr

/-- The relay engine of one device bus. -/
structure RelayEngine where
  device : String
  hopId : String
  maxHops : ℕ
  appEnabled : Bool
  uplinkFilters : List (UnsClass × String)
  downlinkFilters : List String
  rehydrationTopics : List String

namespace RelayEngine

/-- The classes an engine relays device to site: the six consumer classes, and `app` if opted in. -/
def uplinkClasses (appEnabled : Bool) : List UnsClass :=
  UPLINK_CLASSES ++ if appEnabled then [.app] else []

/-- `RelayEngine::new`: the engine for a device token; every class is subscribed at the instance
scope and at the component scope.  An invalid token is refused. -/
def new (device : String) (maxHops : ℕ) (appEnabled : Bool) : Option RelayEngine :=
  if validToken device then
    some
      { device
        hopId := device ++ "/" ++ COMPONENT_TOKEN
        maxHops
        appEnabled
        uplinkFilters := (uplinkClasses appEnabled).flatMap fun cls =>
          [(cls, filterScoped cls .all true), (cls, filterScoped cls .all false)]
        downlinkFilters :=
          [filterScoped .cmd (.device device) true, filterScoped .cmd (.device device) false]
        rehydrationTopics := REHYDRATION_CMDS.map fun cmd =>
          joinLevels [Uns.root, device, "_bcast", UnsClass.cmd.token, cmd] }
  else none

/-- `RelayEngine::uplink_subscriptions`. -/
def uplinkSubscriptions (e : RelayEngine) : List (UnsClass × String) := e.uplinkFilters

/-- The class that `decide` locates in a topic: at level three if a class token stands there, else
at level four. -/
def locateClass (topic : String) : Option UnsClass :=
  let segments := levels topic
  if segments.length < 4 ∨ segments[0]? ≠ some Uns.root then none
  else
    let classIndex := if (segments[3]?.bind UnsClass.fromToken).isSome then 3 else 4
    segments[classIndex]?.bind UnsClass.fromToken

/-- Class routing and device pinning: the first half of `decide`. -/
def route (e : RelayEngine) (direction : Direction) (topic : String) : Except DropReason Unit :=
  match locateClass topic with
  | none => .error .notUnsTopic
  | some cls =>
    match direction with
    | .uplink =>
      if cls ∈ UPLINK_CLASSES ∨ (e.appEnabled = true ∧ cls = .app) then .ok ()
      else .error .classNotRelayed
    | .downlink =>
      if cls ≠ .cmd then .error .classNotRelayed
      else if (levels topic)[1]? ≠ some e.device then .error .notOwnDevice
      else .ok ()

end RelayEngine

/-- The hop list of an envelope: the elements of `tags._relay`, none where the tag is absent or no
list. -/
def Message.relayHops {ρ : Type} (m : Message ρ) : List Value :=
  match m.tags.bind fun tags => tags.extra.lookup RELAY_TAG with
  | some (.array hops) => hops
  | _ => []

/-- The envelope with its hop list replaced, the tags being created where there are none. -/
def Message.setRelayHops {ρ : Type} [Inhabited ρ] (m : Message ρ) (hops : List Value) :
    Message ρ :=
  let tags := m.tags.getD default
  { m with tags := some { tags with extra := tags.extra.insert RELAY_TAG (.array hops) } }

section HopList

variable {ρ : Type} [Inhabited ρ]

@[simp] theorem Message.relayHops_setRelayHops (m : Message ρ) (hops : List Value) :
    (m.setRelayHops hops).relayHops = hops := by
  simp [setRelayHops, relayHops]

@[simp] theorem Message.isRaw_setRelayHops (m : Message ρ) (hops : List Value) :
    (m.setRelayHops hops).isRaw = m.isRaw := rfl

@[simp] theorem Message.header_setRelayHops (m : Message ρ) (hops : List Value) :
    (m.setRelayHops hops).header = m.header := rfl

end HopList

namespace RelayEngine

variable {Bytes ρ : Type} [Inhabited ρ]

/-- `RelayEngine::stamp_hop`: own echoes and exhausted hop lists are refused, anything else gets the
own hop id appended. -/
def stampHop (e : RelayEngine) (msg : Message ρ) : Except DropReason (Message ρ) :=
  if msg.isRaw then .ok msg
  else if msg.relayHops.any (fun h => h.asStr = some e.hopId) then .error .ownEcho
  else if e.maxHops ≤ msg.relayHops.length then .error .maxHopsExceeded
  else .ok (msg.setRelayHops (msg.relayHops ++ [.string e.hopId]))

/-- `RelayEngine::decide`. -/
def decide (e : RelayEngine) (codec : Codec Bytes ρ) (direction : Direction) (topic : String)
    (payload : Bytes) : RelayDecision Bytes :=
  match e.route direction topic with
  | .error reason => .drop reason
  | .ok () =>
    match codec.fromSlice payload with
    | none => .drop .malformedEnvelope
    | some msg =>
      match e.stampHop msg with
      | .error reason => .drop reason
      | .ok msg =>
        match codec.toVec msg with
        | none => .drop .malformedEnvelope
        | some bytes => .forward bytes

/-- The hop rules let an envelope pass: the own hop id is no string element of its hop list, and the
list is shorter than the cap. -/
def AcceptsHops (e : RelayEngine) (msg : Message ρ) : Prop :=
  (∀ h ∈ msg.relayHops, h.asStr ≠ some e.hopId) ∧ msg.relayHops.length < e.maxHops

/-- What `stamp_hop` does to an envelope of the wire. -/
theorem stampHop_eq_ok_iff {e : RelayEngine} {msg msg' : Message ρ} (hraw : msg.isRaw = false) :
    e.stampHop msg = .ok msg' ↔ e.AcceptsHops msg ∧
      msg' = msg.setRelayHops (msg.relayHops ++ [.string e.hopId]) := by
  unfold stampHop AcceptsHops
  simp only [hraw, Bool.false_eq_true, if_false]
  by_cases hecho : msg.relayHops.any (fun h => h.asStr = some e.hopId) = true
  · rw [if_pos hecho]
    have hmem : ¬ ∀ h ∈ msg.relayHops, h.asStr ≠ some e.hopId := by simpa using hecho
    simp [hmem]
  · rw [if_neg hecho]
    have hmem : ∀ h ∈ msg.relayHops, h.asStr ≠ some e.hopId := by simpa using hecho
    by_cases hcap : e.maxHops ≤ msg.relayHops.length
    · simp [hcap, Nat.not_lt.mpr hcap]
    · simp only [hcap, if_false, Except.ok.injEq, Nat.not_le.mp hcap, and_true]
      exact ⟨fun h => ⟨hmem, h.symm⟩, fun h => h.2.symm⟩

/-- `decide` forwards exactly when the topic routes, the payload decodes, the hop rules let it pass
and the stamped envelope encodes. -/
theorem decide_eq_forward_iff {e : RelayEngine} {codec : Codec Bytes ρ} {direction : Direction}
    {topic : String} {payload bytes : Bytes} :
    e.decide codec direction topic payload = .forward bytes ↔
      e.route direction topic = .ok () ∧ ∃ msg msg', codec.fromSlice payload = some msg ∧
        e.stampHop msg = .ok msg' ∧ codec.toVec msg' = some bytes := by
  unfold decide
  cases hroute : e.route direction topic with
  | error reason => simp
  | ok u =>
    cases hdec : codec.fromSlice payload with
    | none => simp
    | some msg =>
      cases hstamp : e.stampHop msg with
      | error reason => simp [hstamp]
      | ok msg' =>
        cases henc : codec.toVec msg' with
        | none => simp [hstamp, henc]
        | some out => simp [hstamp, henc]

/-- The payloads that `decide` forwards on any topic that routes: envelopes that pass the hop rules
and encode again. -/
def Relayable (e : RelayEngine) (codec : Codec Bytes ρ) (payload : Bytes) : Prop :=
  ∃ msg, codec.fromSlice payload = some msg ∧ e.AcceptsHops msg ∧
    (codec.toVec (msg.setRelayHops (msg.relayHops ++ [.string e.hopId]))).isSome

/-- On a topic that routes, exactly the relayable payloads are forwarded. -/
theorem exists_decide_forward_iff {e : RelayEngine} {codec : Codec Bytes ρ} (hc : codec.Lawful)
    {direction : Direction} {topic : String} {payload : Bytes} :
    (∃ bytes, e.decide codec direction topic payload = .forward bytes) ↔
      e.route direction topic = .ok () ∧ e.Relayable codec payload := by
  simp only [decide_eq_forward_iff, Relayable, exists_and_left]
  refine and_congr_right fun _ => ⟨?_, ?_⟩
  · rintro ⟨bytes, msg, hdec, msg', hstamp, henc⟩
    obtain ⟨hacc, rfl⟩ := (stampHop_eq_ok_iff (hc.decode_not_raw _ _ hdec)).mp hstamp
    exact ⟨msg, hdec, hacc, by simp [henc]⟩
  · rintro ⟨msg, hdec, hacc, henc⟩
    obtain ⟨bytes, henc⟩ := Option.isSome_iff_exists.mp henc
    exact ⟨bytes, msg, hdec, _,
      (stampHop_eq_ok_iff (hc.decode_not_raw _ _ hdec)).mpr ⟨hacc, rfl⟩, henc⟩

/-! ### What `new` builds -/

/-- An engine is built for valid device tokens only, and its fields are determined by its
arguments. -/
theorem new_eq_some {device : String} {maxHops : ℕ} {appEnabled : Bool} {e : RelayEngine}
    (h : new device maxHops appEnabled = some e) :
    validToken device = true ∧ e.device = device ∧ e.maxHops = maxHops ∧
      e.appEnabled = appEnabled ∧ e.hopId = device ++ "/" ++ COMPONENT_TOKEN ∧
      e.uplinkFilters = (uplinkClasses appEnabled).flatMap (fun cls =>
        [(cls, filterScoped cls .all true), (cls, filterScoped cls .all false)]) ∧
      e.downlinkFilters =
        [filterScoped .cmd (.device device) true, filterScoped .cmd (.device device) false] := by
  unfold new at h
  split at h
  · rename_i hvalid
    cases h
    exact ⟨hvalid, rfl, rfl, rfl, rfl, rfl, rfl⟩
  · cases h

/-- The rehydration topics are the two broadcast commands of the own device. -/
theorem rehydrationTopics_of_new {device : String} {maxHops : ℕ} {appEnabled : Bool}
    {e : RelayEngine} (h : new device maxHops appEnabled = some e) :
    e.rehydrationTopics = REHYDRATION_CMDS.map fun cmd =>
      joinLevels [Uns.root, device, "_bcast", UnsClass.cmd.token, cmd] := by
  unfold new at h
  split at h
  · cases h
    rfl
  · cases h

/-- The entries of the uplink table: one per relayed class and scope. -/
theorem mem_uplinkFilters {device : String} {maxHops : ℕ} {appEnabled : Bool} {e : RelayEngine}
    (h : new device maxHops appEnabled = some e) {cls : UnsClass} {filter : String} :
    (cls, filter) ∈ e.uplinkFilters ↔ cls ∈ uplinkClasses appEnabled ∧
      (filter = filterScoped cls .all true ∨ filter = filterScoped cls .all false) := by
  obtain ⟨-, -, -, -, -, hup, -⟩ := new_eq_some h
  simp only [hup, List.mem_flatMap, List.mem_cons, Prod.mk.injEq, List.not_mem_nil, or_false]
  constructor
  · rintro ⟨c, hc, ⟨rfl, hf⟩ | ⟨rfl, hf⟩⟩
    · exact ⟨hc, Or.inl hf⟩
    · exact ⟨hc, Or.inr hf⟩
  · rintro ⟨hc, hf | hf⟩
    · exact ⟨cls, hc, Or.inl ⟨rfl, hf⟩⟩
    · exact ⟨cls, hc, Or.inr ⟨rfl, hf⟩⟩

/-- A command is never relayed up. -/
theorem cmd_notMem_uplinkClasses (appEnabled : Bool) : UnsClass.cmd ∉ uplinkClasses appEnabled := by
  cases appEnabled <;> decide

/-- The classes `decide` lets up are those of the table. -/
theorem route_uplink_iff {e : RelayEngine} {topic : String} :
    e.route .uplink topic = .ok () ↔
      ∃ cls, locateClass topic = some cls ∧ cls ∈ uplinkClasses e.appEnabled := by
  unfold route
  cases locateClass topic with
  | none => simp
  | some cls =>
    have hmem : cls ∈ uplinkClasses e.appEnabled ↔
        cls ∈ UPLINK_CLASSES ∨ (e.appEnabled = true ∧ cls = .app) := by
      cases happ : e.appEnabled <;> simp [uplinkClasses]
    by_cases h : cls ∈ UPLINK_CLASSES ∨ (e.appEnabled = true ∧ cls = .app)
    · exact ⟨fun _ => ⟨cls, rfl, hmem.mpr h⟩, fun _ => if_pos h⟩
    · simp [h, hmem]

/-- A downlink message routes when it is a command for the own device. -/
theorem route_downlink_iff {e : RelayEngine} {topic : String} :
    e.route .downlink topic = .ok () ↔
      locateClass topic = some .cmd ∧ (levels topic)[1]? = some e.device := by
  unfold route
  cases locateClass topic with
  | none => simp
  | some cls =>
    by_cases hcls : cls = .cmd
    · by_cases hdev : (levels topic)[1]? = some e.device <;> simp [hcls, hdev]
    · simp [hcls]

/-! ### Where the class stands -/

/-- The class located in a topic that has a class token at level three. -/
theorem locateClass_component {topic d c : String} {cls : UnsClass} {tail : List String}
    (h : levels topic = Uns.root :: d :: c :: cls.token :: tail) :
    locateClass topic = some cls := by
  simp [locateClass, h]

/-- The class located in a topic that has no class token at level three. -/
theorem locateClass_instance {topic d c i t : String} {tail : List String}
    (h : levels topic = Uns.root :: d :: c :: i :: t :: tail) (hi : UnsClass.fromToken i = none) :
    locateClass topic = UnsClass.fromToken t := by
  simp [locateClass, h, hi]

/-- A class is located in topics of the namespace only. -/
theorem root_of_locateClass {topic : String} {cls : UnsClass} (h : locateClass topic = some cls) :
    (levels topic)[0]? = some Uns.root := by
  unfold locateClass at h
  simp only at h
  split at h
  · cases h
  · rename_i hroot
    exact not_not.mp (not_or.mp hroot).2

/-! ### A sample engine -/

/-- The engine of device `gw-01` with the default hop cap, without `app`. -/
def gw01 : RelayEngine := (new "gw-01" DEFAULT_MAX_HOPS false).get (by decide)

/-- The sample engine is built by `new`. -/
theorem new_gw01 : new "gw-01" DEFAULT_MAX_HOPS false = some gw01 := (Option.some_get _).symm

example : gw01.uplinkFilters.take 2 = [(.state, "ecv1/+/+/+/state"), (.state, "ecv1/+/+/state")] ∧
    gw01.downlinkFilters = ["ecv1/gw-01/+/+/cmd/#", "ecv1/gw-01/+/cmd/#"] := by decide

end RelayEngine

end UnsBridge
