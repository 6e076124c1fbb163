import UnsBridge.Lib.Paths
import UnsBridge.Reply

/-!
# Loop protection in a network of bridges

A bridge relays a message in one of four ways: up or down as `decide` forwards it, down with the
`reply_to` rewrite on top, and back up as a reply.  All of them stamp the hop list, so that the hop
list of a copy records its relayers.  From this, for any set of bridges with distinct device tokens
and any order of relays: no bridge relays a copy twice along one chain, the hop list of a relayed
copy ends in the hop ids of its relayers, and chains are no longer than the largest hop cap.
-/

namespace UnsBridge

open RelayEngine

variable {Bytes ρ : Type}

/-- The value of the hop tag of an envelope. -/
def Message.relayTag (m : Message ρ) : Option Value :=
  m.tags.bind fun tags => tags.extra.lookup RELAY_TAG

/-- An envelope with a non-empty hop list carries exactly that list in its hop tag. -/
theorem Message.relayTag_of_relayHops_ne_nil {m : Message ρ} (h : m.relayHops ≠ []) :
    m.relayTag = some (.array m.relayHops) := by
  unfold relayHops relayTag at *
  cases htag : m.tags.bind fun tags => tags.extra.lookup RELAY_TAG with
  | none => simp [htag] at h
  | some v =>
    cases v with
    | array hops => rfl
    | _ => simp [htag] at h

variable [Inhabited ρ]

/-- The bytes `b'` are what the bridge publishes when it relays the bytes `b`, on any topic and on
any of its paths. -/
inductive Relays (codec : Codec Bytes ρ) (e : RelayEngine) (b b' : Bytes) : Prop
  /-- Device bus to site broker. -/
  | up (topic : String) (h : e.decide codec .uplink topic b = .forward b')
  /-- Site broker to device bus, without a reply path. -/
  | down (topic : String) (h : e.decide codec .downlink topic b = .forward b')
  /-- Site broker to device bus, with the reply path rewritten after the decision. -/
  | downRewritten (topic : String) (stamped : Bytes) (c : ReplyCorrelator) (mint : String)
      (now : Instant) (bridgeTopic : String) (evicted : Option String)
      (h : e.decide codec .downlink topic b = .forward stamped)
      (hrw : (c.rewriteDownlink codec stamped mint now).1 =
        some (.rewritten b' bridgeTopic evicted))
  /-- A reply, on its way back up. -/
  | reply (h : prepareReply e codec b = .forward b')

section OneRelay

variable {codec : Codec Bytes ρ} {e : RelayEngine} {b b' : Bytes}

/-- What `decide` forwards is the decoded message with the own hop id appended to its hop list. -/
theorem decode_of_decide (hc : codec.Lawful) {direction : Direction} {topic : String}
    (h : e.decide codec direction topic b = .forward b') :
    ∃ m, codec.fromSlice b = some m ∧ e.AcceptsHops m ∧
      codec.fromSlice b' = some (m.setRelayHops (m.relayHops ++ [.string e.hopId])) := by
  obtain ⟨-, m, m', hdec, hstamp, henc⟩ := decide_eq_forward_iff.mp h
  have hraw := hc.decode_not_raw _ _ hdec
  obtain ⟨hacc, rfl⟩ := (stampHop_eq_ok_iff hraw).mp hstamp
  exact ⟨m, hdec, hacc, hc.decode_encode _ _ hraw henc⟩

/-- A relay of any kind decodes its input, finds its hop list acceptable and publishes an envelope
whose hop list is that one with the own hop id appended. -/
theorem Relays.hops (hc : codec.Lawful) (h : Relays codec e b b') :
    ∃ m m', codec.fromSlice b = some m ∧ e.AcceptsHops m ∧ codec.fromSlice b' = some m' ∧
      m'.relayHops = m.relayHops ++ [.string e.hopId] := by
  cases h with
  | up topic h =>
    obtain ⟨m, hdec, hacc, hdec'⟩ := decode_of_decide hc h
    exact ⟨m, _, hdec, hacc, hdec', by simp⟩
  | down topic h =>
    obtain ⟨m, hdec, hacc, hdec'⟩ := decode_of_decide hc h
    exact ⟨m, _, hdec, hacc, hdec', by simp⟩
  | downRewritten topic stamped c mint now bridgeTopic evicted h hrw =>
    obtain ⟨m, hdec, hacc, hdec'⟩ := decode_of_decide hc h
    generalize hcall : c.rewriteDownlink codec stamped mint now = r at hrw
    have hspec := c.rewriteDownlink_spec codec stamped mint now
    rw [hcall] at hspec
    cases hspec with
    | malformed => cases hrw
    | passthrough => cases hrw
    | panicked => cases hrw
    | rewritten hdec₂ hreply henc hdl =>
      cases hrw
      rw [hdec', Option.some.injEq] at hdec₂
      subst hdec₂
      have hraw := hc.decode_not_raw _ _ hdec'
      exact ⟨m, _, hdec, hacc, hc.decode_encode _ _ (by simpa using hraw) henc, by simp⟩
  | reply h =>
    obtain ⟨m, m', hdec, hstamp, henc⟩ := prepareReply_eq_forward_iff.mp h
    have hraw := hc.decode_not_raw _ _ hdec
    have hraw' : (m.setReplyTo none).isRaw = false := hraw
    obtain ⟨hacc, rfl⟩ := (stampHop_eq_ok_iff hraw').mp hstamp
    exact ⟨m, _, hdec, hacc, hc.decode_encode _ _ (by simpa using hraw) henc, by simp⟩

end OneRelay

/-- The chains of successive relays of the copies of an injected message by bridges of a network:
the relayers in order, and the bytes of the last copy. -/
inductive RelayChain (codec : Codec Bytes ρ) (net : List RelayEngine) (injected : Bytes) :
    List RelayEngine → Bytes → Prop
  /-- The injected message itself. -/
  | injected : RelayChain codec net injected [] injected
  /-- One more relay of the last copy. -/
  | relay {es : List RelayEngine} {e : RelayEngine} {b b' : Bytes}
      (h : RelayChain codec net injected es b) (he : e ∈ net) (hr : Relays codec e b b') :
      RelayChain codec net injected (es ++ [e]) b'

/-- The largest hop cap of a network. -/
def largestCap (net : List RelayEngine) : ℕ := (net.map RelayEngine.maxHops).foldr max 0

/-- Every hop cap is below the largest one. -/
theorem maxHops_le_largestCap {net : List RelayEngine} {e : RelayEngine} (he : e ∈ net) :
    e.maxHops ≤ largestCap net := by
  unfold largestCap
  induction net with
  | nil => cases he
  | cons a net ih =>
    rcases List.mem_cons.mp he with rfl | he
    · exact Nat.le_max_left _ _
    · exact (ih he).trans (Nat.le_max_right _ _)

section Chains

variable {codec : Codec Bytes ρ} {net : List RelayEngine} {injected b : Bytes}
  {es : List RelayEngine}

/-- The chain without relayers ends in the injected message. -/
theorem RelayChain.eq_injected (h : RelayChain codec net injected [] b) : b = injected := by
  generalize hes : ([] : List RelayEngine) = es at h
  cases h with
  | injected => rfl
  | relay => simp at hes

/-- The hop list of a copy at the end of a chain is the hop list of the injected message followed by
the hop ids of the relayers in order. -/
theorem RelayChain.relayHops (hc : codec.Lawful) (h : RelayChain codec net injected es b)
    (hne : es ≠ []) : ∃ m₀ m, codec.fromSlice injected = some m₀ ∧ codec.fromSlice b = some m ∧
      m.relayHops = m₀.relayHops ++ es.map fun e => Value.string e.hopId := by
  induction h with
  | injected => exact absurd rfl hne
  | @relay es e b b' h he hr ih =>
    obtain ⟨m, m', hdec, -, hdec', hhops⟩ := hr.hops hc
    cases hes : es with
    | nil =>
      subst hes
      obtain rfl := h.eq_injected
      exact ⟨m, m', hdec, hdec', by simpa using hhops⟩
    | cons a as =>
      obtain ⟨m₀, m₁, hdec₀, hdec₁, hhops₁⟩ := ih (by simp [hes])
      obtain rfl : m₁ = m := by simpa [hdec₁] using hdec
      refine ⟨m₀, m', hdec₀, hdec', ?_⟩
      rw [hhops, hhops₁, ← hes]
      simp

/-- One more relay of a chain is by a bridge whose hop id is not in it yet, and stays within that
bridge's hop cap. -/
theorem RelayChain.fresh (hc : codec.Lawful) (h : RelayChain codec net injected es b)
    {e : RelayEngine} {b' : Bytes} (hr : Relays codec e b b') :
    e.hopId ∉ es.map RelayEngine.hopId ∧ es.length < e.maxHops := by
  obtain ⟨m, m', hdec, ⟨hecho, hcap⟩, -⟩ := hr.hops hc
  by_cases hes : es = []
  · subst hes
    exact ⟨List.not_mem_nil, Nat.lt_of_le_of_lt (Nat.zero_le _) hcap⟩
  · obtain ⟨m₀, m₁, -, hdec₁, hhops⟩ := h.relayHops hc hes
    obtain rfl : m₁ = m := by simpa [hdec₁] using hdec
    constructor
    · intro hmem
      obtain ⟨e', he', hid⟩ := List.mem_map.mp hmem
      refine hecho (.string e'.hopId) ?_ (by rw [Value.asStr_string, hid])
      rw [hhops]
      exact List.mem_append_right _ (List.mem_map.mpr ⟨e', he', rfl⟩)
    · rw [hhops, List.length_append, List.length_map] at hcap
      omega

/-- No hop id, and hence no bridge, occurs twice among the relayers of a chain. -/
theorem RelayChain.nodup (hc : codec.Lawful) (h : RelayChain codec net injected es b) :
    (es.map RelayEngine.hopId).Nodup := by
  induction h with
  | injected => exact List.nodup_nil
  | @relay es e b b' h he hr ih =>
    rw [List.map_append, List.nodup_append]
    refine ⟨ih, List.nodup_singleton _, ?_⟩
    rintro x hx y hy rfl
    exact (h.fresh hc hr).1 (List.mem_singleton.mp hy ▸ hx)

/-- A chain is no longer than the largest hop cap. -/
theorem RelayChain.length_le (hc : codec.Lawful) (h : RelayChain codec net injected es b) :
    es.length ≤ largestCap net := by
  cases h with
  | injected => exact Nat.zero_le _
  | relay h he hr =>
    have hlt := (h.fresh hc hr).2
    have hle := maxHops_le_largestCap he
    simp only [List.length_append, List.length_singleton]
    omega

end Chains

/-! ### All relays that descend from one injection -/

/-- One relay of a copy: the relaying bridge, a ticket that tells apart the deliveries of the same
copy, and the bytes it publishes. -/
structure Hop (Bytes : Type) where
  bridge : RelayEngine
  ticket : ℕ
  bytes : Bytes

/-- The bytes carried at the end of a history of relays. -/
def carried (injected : Bytes) (history : List (Hop Bytes)) : Bytes :=
  (history.getLast?.map Hop.bytes).getD injected

/-- A relay history may be extended by a relay that the buses offer for its last copy. -/
def Extends (codec : Codec Bytes ρ) (net : List RelayEngine) (injected : Bytes)
    (offers : List (Hop Bytes) → Set (Hop Bytes)) (history : List (Hop Bytes)) (hop : Hop Bytes) :
    Prop :=
  hop ∈ offers history ∧ hop.bridge ∈ net ∧
    Relays codec hop.bridge (carried injected history) hop.bytes

/-- A relay history is a chain of relays. -/
theorem relayChain_of_isPath {codec : Codec Bytes ρ} {net : List RelayEngine} {injected : Bytes}
    {offers : List (Hop Bytes) → Set (Hop Bytes)} {history : List (Hop Bytes)}
    (h : Paths.IsPath (Extends codec net injected offers) history) :
    RelayChain codec net injected (history.map Hop.bridge) (carried injected history) := by
  induction h with
  | nil => exact .injected
  | snoc hp ha ih =>
    have hlast := RelayChain.relay ih ha.2.1 ha.2.2
    simpa [carried] using hlast

/-- No relay loop in any network of bridges.  Along every chain of relays no bridge occurs twice; a
relayed copy carries the hop list of the injected message followed by the hop ids of its relayers in
order; the chain is no longer than the largest hop cap; and where every copy is delivered finitely
often, one injection causes finitely many relays. -/
theorem no_relay_loop (codec : Codec Bytes ρ) (hc : codec.Lawful) (net : List RelayEngine)
    (injected : Bytes) :
    (∀ es b, RelayChain codec net injected es b →
      (es.map RelayEngine.hopId).Nodup ∧ es.Nodup ∧ es.length ≤ largestCap net ∧
      (es ≠ [] → ∃ m₀ m, codec.fromSlice injected = some m₀ ∧ codec.fromSlice b = some m ∧
        m.relayTag = some (.array (m₀.relayHops ++ es.map fun e => .string e.hopId)))) ∧
    ∀ offers : List (Hop Bytes) → Set (Hop Bytes), (∀ history, (offers history).Finite) →
      {history | Paths.IsPath (Extends codec net injected offers) history}.Finite := by
  refine ⟨fun es b h => ⟨h.nodup hc, (h.nodup hc).of_map, h.length_le hc, fun hne => ?_⟩, ?_⟩
  · obtain ⟨m₀, m, hdec₀, hdec, hhops⟩ := h.relayHops hc hne
    refine ⟨m₀, m, hdec₀, hdec, ?_⟩
    rw [← hhops]
    apply Message.relayTag_of_relayHops_ne_nil
    rw [hhops]
    simpa using fun _ => hne
  · intro offers hfin
    apply Paths.finite_isPath (K := largestCap net)
    · exact fun history => (hfin history).subset fun hop hhop => hhop.1
    · intro history hpath
      simpa using (relayChain_of_isPath hpath).length_le hc

/-! ### A sample network -/

/-- The engine of device `gw-02`, which relays `app` as well. -/
def gw02 : RelayEngine := (new "gw-02" 3 true).get (by decide)

/-- The engine of device `gw-03`, with a larger hop cap. -/
def gw03 : RelayEngine := (new "gw-03" 6 false).get (by decide)

/-- A message that has come through a bridge of another network and then through these ones. -/
def travelled (replyTo : Option String) (relayers : List RelayEngine) : Message Unit :=
  (Message.sample replyTo).setRelayHops
    (.string "gw-09/uns-bridge" :: relayers.map fun e => .string e.hopId)

/-- Three bridges relay the message, each on another path: up, down with its reply path rewritten,
and as a reply. -/
theorem relayChain_travelled : RelayChain (Codec.plain Unit) [gw01, gw02, gw03]
    (travelled (some "ecv1/gw-09/main/reply") []) [gw01, gw02, gw03]
    (travelled none [gw01, gw02, gw03]) := by
  have hup : Relays (Codec.plain Unit) gw01 (travelled (some "ecv1/gw-09/main/reply") [])
      (travelled (some "ecv1/gw-09/main/reply") [gw01]) :=
    .up "ecv1/gw-01/adapter/main/state" rfl
  have hdown : Relays (Codec.plain Unit) gw02 (travelled (some "ecv1/gw-09/main/reply") [gw01])
      (travelled (some "edgecommons/reply-1") [gw01, gw02]) :=
    .downRewritten "ecv1/gw-02/adapter/main/cmd/set"
      (travelled (some "ecv1/gw-09/main/reply") [gw01, gw02]) (.new 30 4) "edgecommons/reply-1" 0
      "edgecommons/reply-1" none rfl rfl
  have hreply : Relays (Codec.plain Unit) gw03
      (travelled (some "edgecommons/reply-1") [gw01, gw02]) (travelled none [gw01, gw02, gw03]) :=
    .reply rfl
  exact ((RelayChain.injected.relay (by simp) hup).relay (by simp) hdown).relay (by simp) hreply

/-- The message keeps the hop that it had, and the three relayers follow. -/
theorem no_relay_loop_gw01 : ∃ m₀ m,
    (Codec.plain Unit).fromSlice (travelled (some "ecv1/gw-09/main/reply") []) = some m₀ ∧
    (Codec.plain Unit).fromSlice (travelled none [gw01, gw02, gw03]) = some m ∧
    m.relayTag = some (.array (m₀.relayHops ++
      [gw01, gw02, gw03].map fun e => Value.string e.hopId)) :=
  ((no_relay_loop (Codec.plain Unit) (Codec.plain_lawful Unit) [gw01, gw02, gw03] _).1 _ _
    relayChain_travelled).2.2.2 (List.cons_ne_nil _ _)

end UnsBridge
