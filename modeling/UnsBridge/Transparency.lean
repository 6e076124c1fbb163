import UnsBridge.LoopProtection

/-!
# What the bridge changes in a message

A message crosses the bridge on one of three paths, each of which decodes it, changes it and encodes
it again: `decide` for what goes up and for commands without a `reply_to`, `decide` followed by
`rewrite_downlink` for commands with one, and `prepareReply` for replies.  `Stamped` says field by
field what the hop rules leave of a message, and `Carries` what a path must do.

The three paths agree, with one exception: a command with a `reply_to` is not published where the
deadline of its entry is out of range.
-/

namespace UnsBridge

open RelayEngine

variable {Bytes ρ : Type} [Inhabited ρ]

/-- Every envelope can be encoded. -/
def Codec.Total (codec : Codec Bytes ρ) : Prop :=
  ∀ m, m.isRaw = false → (codec.toVec m).isSome = true

/-- The plain codec is total. -/
theorem Codec.plain_total (ρ : Type) : (Codec.plain ρ).Total := by
  intro m hraw
  simp [plain, hraw]

/-- The value of a tag, none where the tags are absent. -/
def Message.tag {ρ : Type} (m : Message ρ) (key : String) : Option Value :=
  m.tags.bind fun tags => tags.extra.lookup key

/-- The other message has the own hop id at the end of the hop list, and nothing else is changed. -/
structure RelayEngine.Stamped (e : RelayEngine) (m out : Message ρ) : Prop where
  header : out.header = m.header
  raw : out.raw = m.raw
  rest : out.rest = m.rest
  /-- The tags are there, with whatever else they hold. -/
  tags_rest : out.tags.map MessageTags.rest = some (m.tags.getD default).rest
  /-- The hop list is that of the message, which may be absent or no list, and the own hop id. -/
  tag_relay : out.tag RELAY_TAG = some (.array (m.relayHops ++ [.string e.hopId]))
  /-- The other tags are kept. -/
  tag_of_ne : ∀ key ≠ RELAY_TAG, out.tag key = m.tag key

/-- The tags of a message, or the default ones, hold its tags. -/
theorem Message.lookup_getD_tags (m : Message ρ) (key : String) :
    (m.tags.getD default).extra.lookup key = m.tag key := by
  unfold tag
  cases m.tags with
  | none => exact Finmap.lookup_empty key
  | some tags => rfl

/-- There is exactly one such message: what `stamp_hop` makes of an envelope. -/
theorem RelayEngine.stamped_iff {e : RelayEngine} {m out : Message ρ} :
    e.Stamped m out ↔ out = m.setRelayHops (m.relayHops ++ [.string e.hopId]) := by
  constructor
  · intro h
    obtain ⟨tags, htags, hrest⟩ := Option.map_eq_some_iff.mp h.tags_rest
    have hextra : tags.extra = (m.tags.getD default).extra.insert RELAY_TAG
        (.array (m.relayHops ++ [.string e.hopId])) := by
      refine Finmap.ext_lookup fun key => ?_
      have hlookup : tags.extra.lookup key = out.tag key := by simp [Message.tag, htags]
      by_cases hkey : key = RELAY_TAG
      · rw [hlookup, hkey, h.tag_relay, Finmap.lookup_insert]
      · rw [hlookup, h.tag_of_ne key hkey, Finmap.lookup_insert_of_ne _ hkey, m.lookup_getD_tags]
    calc out = ⟨out.header, out.tags, out.raw, out.rest⟩ := rfl
      _ = ⟨m.header, some ⟨tags.extra, tags.rest⟩, m.raw, m.rest⟩ := by
        rw [h.header, htags, h.raw, h.rest]
      _ = m.setRelayHops (m.relayHops ++ [.string e.hopId]) := by
        rw [hextra, hrest]
        rfl
  · rintro rfl
    refine ⟨rfl, rfl, rfl, rfl, ?_, fun key hkey => ?_⟩
    · exact Finmap.lookup_insert _
    · exact (Finmap.lookup_insert_of_ne _ hkey).trans (m.lookup_getD_tags key)

/-! ### The three paths -/

/-- A path for a message publishes something exactly if it routes and the hop rules accept the
message, and what it publishes is the wanted message with the own hop id appended. -/
structure Carries (codec : Codec Bytes ρ) (e : RelayEngine) (m want : Message ρ) (routes : Prop)
    (publishes : Bytes → Prop) : Prop where
  publishes_iff : (∃ bytes, publishes bytes) ↔ routes ∧ e.AcceptsHops m
  stamped : ∀ bytes, publishes bytes →
    ∃ out, codec.fromSlice bytes = some out ∧ e.Stamped want out

/-- What is published for a command on its way down: `decide`, then `rewrite_downlink`. -/
def relayCommand (e : RelayEngine) (codec : Codec Bytes ρ) (c : ReplyCorrelator) (topic : String)
    (payload : Bytes) (mint : String) (now : Instant) : Option Bytes :=
  match e.decide codec .downlink topic payload with
  | .drop _ => none
  | .forward relayed =>
    match (c.rewriteDownlink codec relayed mint now).1 with
    | some .passthrough => some relayed
    | some (.rewritten bytes _ _) => some bytes
    | some (.drop _) => none
    | none => none

section Paths

variable {codec : Codec Bytes ρ} {e : RelayEngine} {m want : Message ρ} {routes : Prop}
  {payload : Bytes} {publishes : Bytes → Prop}

/-- A path that stamps a message with the hop list of `m` and encodes it. -/
theorem carries_of_stampHop (hc : codec.Lawful) (htotal : codec.Total)
    (hraw : want.isRaw = false) (hhops : want.relayHops = m.relayHops)
    (h : ∀ bytes, publishes bytes ↔
      routes ∧ ∃ out, e.stampHop want = .ok out ∧ codec.toVec out = some bytes) :
    Carries codec e m want routes publishes := by
  have haccepts : e.AcceptsHops want ↔ e.AcceptsHops m := by rw [AcceptsHops, hhops, AcceptsHops]
  refine ⟨⟨?_, ?_⟩, fun bytes hbytes => ?_⟩
  · rintro ⟨bytes, hbytes⟩
    obtain ⟨hroutes, out, hstamp, -⟩ := (h bytes).mp hbytes
    exact ⟨hroutes, haccepts.mp ((stampHop_eq_ok_iff hraw).mp hstamp).1⟩
  · rintro ⟨hroutes, hacc⟩
    obtain ⟨bytes, henc⟩ := Option.isSome_iff_exists.mp
      (htotal (want.setRelayHops (want.relayHops ++ [.string e.hopId])) hraw)
    exact ⟨bytes, (h bytes).mpr ⟨hroutes, _,
      (stampHop_eq_ok_iff hraw).mpr ⟨haccepts.mpr hacc, rfl⟩, henc⟩⟩
  · obtain ⟨-, out, hstamp, henc⟩ := (h bytes).mp hbytes
    obtain ⟨-, hout⟩ := (stampHop_eq_ok_iff hraw).mp hstamp
    have hrawout : out.isRaw = false := hout ▸ hraw
    exact ⟨out, hc.decode_encode _ _ hrawout henc, stamped_iff.mpr hout⟩

/-- The path of `decide`. -/
theorem carries_decide (hc : codec.Lawful) (htotal : codec.Total)
    (hdec : codec.fromSlice payload = some m) (direction : Direction) (topic : String) :
    Carries codec e m m (e.route direction topic = .ok ()) fun bytes =>
      e.decide codec direction topic payload = .forward bytes := by
  refine carries_of_stampHop hc htotal (hc.decode_not_raw _ _ hdec) rfl fun bytes => ?_
  simp [decide_eq_forward_iff, hdec]

/-- The path of `prepareReply`. -/
theorem carries_prepareReply (hc : codec.Lawful) (htotal : codec.Total)
    (hdec : codec.fromSlice payload = some m) :
    Carries codec e m (m.setReplyTo none) True fun bytes =>
      prepareReply e codec payload = .forward bytes := by
  have hraw : (m.setReplyTo none).isRaw = false :=
    (m.isRaw_setReplyTo none).trans (hc.decode_not_raw _ _ hdec)
  refine carries_of_stampHop hc htotal hraw rfl fun bytes => ?_
  simp [prepareReply_eq_forward_iff, hdec]

/-- What is published for a command that `decide` refuses. -/
theorem relayCommand_of_refused {c : ReplyCorrelator} {topic mint : String} {now : Instant}
    (h : ¬ ∃ bytes, e.decide codec .downlink topic payload = .forward bytes) :
    relayCommand e codec c topic payload mint now = none := by
  unfold relayCommand
  cases hdecide : e.decide codec .downlink topic payload with
  | drop reason => rfl
  | forward bytes => exact absurd ⟨bytes, hdecide⟩ h

/-- What is published for a command that `decide` forwards: the envelope is decoded once more, and
its `reply_to`, if it has one, is exchanged for the minted topic. -/
theorem relayCommand_of_forward (hc : codec.Lawful) (htotal : codec.Total)
    (c : ReplyCorrelator) (mint : String) (now : Instant) {topic : String} {relayed : Bytes}
    {out : Message ρ}
    (hdecide : e.decide codec .downlink topic payload = .forward relayed)
    (hdec : codec.fromSlice relayed = some out) :
    (out.header.replyTo = none →
      relayCommand e codec c topic payload mint now = some relayed) ∧
    (out.header.replyTo.isSome = true → ∃ bytes,
      codec.fromSlice bytes = some (out.setReplyTo (some mint)) ∧
      relayCommand e codec c topic payload mint now =
        if now + c.ttl < 2 ^ 63 * 1000000000 then some bytes else none) := by
  have hraw : (out.setReplyTo (some mint)).isRaw = false :=
    (out.isRaw_setReplyTo (some mint)).trans (hc.decode_not_raw _ _ hdec)
  refine ⟨fun hnone => ?_, fun hsome => ?_⟩
  · simp [relayCommand, hdecide, ReplyCorrelator.rewriteDownlink, hdec, hnone]
  · obtain ⟨site, hreply⟩ := Option.isSome_iff_exists.mp hsome
    obtain ⟨bytes, henc⟩ := Option.isSome_iff_exists.mp (htotal _ hraw)
    refine ⟨bytes, hc.decode_encode _ _ hraw henc, ?_⟩
    simp only [relayCommand, hdecide, c.rewriteDownlink_of_request now hdec hreply henc,
      Instant.checkedAdd]
    split_ifs <;> rfl

/-- The path of a command carries it exactly if it is not a command that is forwarded with a
`reply_to` and a deadline out of range. -/
theorem carries_relayCommand_iff (hc : codec.Lawful) (htotal : codec.Total)
    (hdec : codec.fromSlice payload = some m) (c : ReplyCorrelator) (topic mint : String)
    (now : Instant) :
    Carries codec e m (m.setReplyTo (m.header.replyTo.map fun _ => mint))
        (e.route .downlink topic = .ok ())
        (fun bytes => relayCommand e codec c topic payload mint now = some bytes) ↔
      (e.route .downlink topic = .ok () → e.AcceptsHops m → m.header.replyTo.isSome = true →
        now + c.ttl < 2 ^ 63 * 1000000000) := by
  have hdecides := (carries_decide hc htotal hdec (e := e) .downlink topic).publishes_iff
  by_cases hforward : ∃ bytes, e.decide codec .downlink topic payload = .forward bytes
  · obtain ⟨hroutes, hacc⟩ := hdecides.mp hforward
    obtain ⟨relayed, hrelayed⟩ := hforward
    obtain ⟨m', hdec', -, hout⟩ := decode_of_decide hc hrelayed
    obtain rfl := Option.some.inj (hdec.symm.trans hdec')
    obtain ⟨hpass, hrewrite⟩ := relayCommand_of_forward hc htotal c mint now hrelayed hout
    cases hreply : m.header.replyTo with
    | none =>
      have hsame : m.setReplyTo none = m := by rw [← hreply]; rfl
      rw [hpass hreply, Option.map_none, hsame]
      refine ⟨fun _ _ _ hsome => absurd hsome (by simp), fun _ => ⟨⟨fun _ => ⟨hroutes, hacc⟩,
        fun _ => ⟨_, rfl⟩⟩, fun bytes hbytes => ?_⟩⟩
      obtain rfl := Option.some.inj hbytes
      exact ⟨_, hout, stamped_iff.mpr rfl⟩
    | some site =>
      obtain ⟨bytes, hdecbytes, hresult⟩ := hrewrite (by simp [hreply])
      rw [hresult, Option.map_some]
      split_ifs with hrange
      · refine iff_of_true ⟨⟨fun _ => ⟨hroutes, hacc⟩, fun _ => ⟨_, rfl⟩⟩, fun out hout => ?_⟩
          fun _ _ _ => hrange
        obtain rfl := Option.some.inj hout
        exact ⟨_, hdecbytes, stamped_iff.mpr rfl⟩
      · refine iff_of_false (fun h => ?_) fun h => hrange (h hroutes hacc rfl)
        obtain ⟨bytes, hbytes⟩ := h.publishes_iff.mpr ⟨hroutes, hacc⟩
        cases hbytes
  · have hrefused : ¬ (e.route .downlink topic = .ok () ∧ e.AcceptsHops m) :=
      fun h => hforward (hdecides.mpr h)
    rw [relayCommand_of_refused hforward]
    refine iff_of_true ⟨iff_of_false ?_ hrefused, fun bytes hbytes => ?_⟩
      fun hroutes hacc => absurd ⟨hroutes, hacc⟩ hrefused
    · rintro ⟨bytes, hbytes⟩
      cases hbytes
    · cases hbytes

end Paths

/-- All paths carry a message. -/
structure Transparent (codec : Codec Bytes ρ) (e : RelayEngine) (c : ReplyCorrelator)
    (m : Message ρ) (topic : String) (payload : Bytes) (mint : String) (now : Instant) : Prop where
  /-- Uplink messages, and commands for which no reply path is asked. -/
  decide : ∀ direction, Carries codec e m m (e.route direction topic = .ok ()) fun bytes =>
    e.decide codec direction topic payload = .forward bytes
  /-- Commands; a `reply_to` is exchanged for the minted topic. -/
  command : Carries codec e m (m.setReplyTo (m.header.replyTo.map fun _ => mint))
    (e.route .downlink topic = .ok ()) fun bytes =>
      relayCommand e codec c topic payload mint now = some bytes
  /-- Replies; a `reply_to` is removed. -/
  reply : Carries codec e m (m.setReplyTo none) True fun bytes =>
    prepareReply e codec payload = .forward bytes

/-- The bridge is transparent but for its touches.  Take any engine, any map, any message and any
topic, and let the codec be lawful and total.  Each path publishes something for the message exactly
if the topic routes (a reply always does), the own hop id is no string element of the hop list and
the list is shorter than the cap; what it publishes decodes to the message with the own hop id at
the end of its hop list, and its `reply_to` exchanged for the minted topic on the way down and
removed from a reply.  This holds exactly if the message is not a command with a `reply_to`, routed
and accepted, whose deadline is out of range. -/
theorem relay_transparent_iff {codec : Codec Bytes ρ} (hc : codec.Lawful) (htotal : codec.Total)
    (e : RelayEngine) (c : ReplyCorrelator) {m : Message ρ} {payload : Bytes}
    (hdec : codec.fromSlice payload = some m) (topic mint : String) (now : Instant) :
    Transparent codec e c m topic payload mint now ↔
      (e.route .downlink topic = .ok () → e.AcceptsHops m → m.header.replyTo.isSome = true →
        now + c.ttl < 2 ^ 63 * 1000000000) := by
  rw [← carries_relayCommand_iff hc htotal hdec c topic mint now]
  refine ⟨fun h => h.command, fun h => ⟨fun direction => ?_, h, ?_⟩⟩
  · exact carries_decide hc htotal hdec direction topic
  · exact carries_prepareReply hc htotal hdec

/-- A command for device `gw-01` routes. -/
theorem RelayEngine.route_gw01 :
    gw01.route .downlink "ecv1/gw-01/adapter/main/cmd/write" = .ok () :=
  route_downlink_iff.mpr ⟨by decide, by decide⟩

/-- A message without hops is accepted by the engine of device `gw-01`. -/
theorem RelayEngine.acceptsHops_gw01 (replyTo : Option String) :
    gw01.AcceptsHops (.sample replyTo) :=
  ⟨fun _ hh => absurd hh List.not_mem_nil, (by decide : 0 < gw01.maxHops)⟩

/-- With the longest ttl that an instant at the epoch can bear, a command with a `reply_to` is not
relayed one second later. -/
theorem late_command_not_relayed :
    ¬ Transparent (Codec.plain Unit) gw01 (.new (Duration.fromSecs 9223372036854775807) 1)
      (.sample (some "site/replies/7")) "ecv1/gw-01/adapter/main/cmd/write"
      (.sample (some "site/replies/7")) "r-1" 1000000000 := by
  intro h
  have hrange := (carries_relayCommand_iff (Codec.plain_lawful Unit) (Codec.plain_total Unit) rfl
    _ _ _ _).mp h.command route_gw01 (acceptsHops_gw01 _) rfl
  exact absurd hrange (by decide)

/-- With the default ttl, such a command is relayed as it should be. -/
theorem relay_transparent_gw01 :
    Transparent (Codec.plain Unit) gw01 (.new (Duration.fromSecs 60) 1024)
      (.sample (some "site/replies/7")) "ecv1/gw-01/adapter/main/cmd/write"
      (.sample (some "site/replies/7")) "r-1" 0 :=
  (relay_transparent_iff (Codec.plain_lawful Unit) (Codec.plain_total Unit) gw01 _ rfl _ "r-1"
    0).mpr fun _ _ _ => by decide

end UnsBridge
