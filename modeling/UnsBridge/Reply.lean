import UnsBridge.Config
import UnsBridge.Relay

/-!
# The reply proxy's correlation map

A downlink command that carries `header.reply_to` is rewritten: the bridge mints a reply topic of
its own, remembers in `ReplyCorrelator` which site topic it stands for and until when, and puts it
into the header.  `take` resolves a minted topic once, `sweep` expires what is overdue, `abandon`
forgets an entry and `drain` empties the map; a full map loses its oldest entry to a new one.
`prepareReply` is the transform of a reply on its way back.

The topic that `new_reply_topic` would return and the current instant are arguments.
-/

namespace UnsBridge

/-- `Pending`: one request in flight. -/
structure Pending where
  siteReplyTo : String
  correlationId : String
  deadline : Instant

/-- `DownlinkRewrite`. -/
inductive DownlinkRewrite (Bytes : Type) where
  | passthrough
  | rewritten (bytes : Bytes) (bridgeTopic : String) (evicted : Option String)
  | drop (reason : DropReason)

/-- `ReplyRelay`. -/
inductive ReplyRelay (Bytes : Type) where
  | forward (bytes : Bytes)
  | drop (reason : DropReason)

/-- `ReplyCorrelator`: the entries in insertion order, the oldest first; the bound is positive. -/
structure ReplyCorrelator where
  ttl : Duration
  maxPending : ℕ
  pending : List (String × Pending)
  maxPending_pos : 0 < maxPending

/-- The envelope with another `header.reply_to`. -/
def Message.setReplyTo {ρ : Type} (m : Message ρ) (replyTo : Option String) : Message ρ :=
  { m with header := { m.header with replyTo } }

section ReplyTo

variable {ρ : Type} (m : Message ρ) (replyTo : Option String)

@[simp] theorem Message.replyTo_setReplyTo : (m.setReplyTo replyTo).header.replyTo = replyTo := rfl

@[simp] theorem Message.isRaw_setReplyTo : (m.setReplyTo replyTo).isRaw = m.isRaw := rfl

@[simp] theorem Message.relayHops_setReplyTo : (m.setReplyTo replyTo).relayHops = m.relayHops := rfl

end ReplyTo

namespace ReplyCorrelator

variable {Bytes ρ : Type}

/-- `ReplyCorrelator::new`; a bound of zero is treated as one. -/
def new (ttl : Duration) (maxPending : ℕ) : ReplyCorrelator where
  ttl
  maxPending := max maxPending 1
  pending := []
  maxPending_pos := by omega

/-- The minted topics with a live entry, the oldest first. -/
def topics (c : ReplyCorrelator) : List String := c.pending.map Prod.fst

/-- The eviction of `rewrite_downlink`: a full map gives up its oldest entry. -/
def evictOldest (c : ReplyCorrelator) : Option String × List (String × Pending) :=
  if c.maxPending ≤ c.pending.length then (c.pending.head?.map Prod.fst, c.pending.tail)
  else (none, c.pending)

/-- `ReplyCorrelator::rewrite_downlink`, with the topic that `new_reply_topic` returns in it.  The
result is `none` where the deadline addition panics; the eviction has then taken place already. -/
def rewriteDownlink (c : ReplyCorrelator) (codec : Codec Bytes ρ) (relayed : Bytes) (mint : String)
    (now : Instant) : Option (DownlinkRewrite Bytes) × ReplyCorrelator :=
  match codec.fromSlice relayed with
  | none => (some (.drop .malformedEnvelope), c)
  | some msg =>
    match msg.header.replyTo with
    | none => (some .passthrough, c)
    | some siteReplyTo =>
      match codec.toVec (msg.setReplyTo (some mint)) with
      | none => (some (.drop .malformedEnvelope), c)
      | some bytes =>
        let (evicted, kept) := c.evictOldest
        match Instant.checkedAdd now c.ttl with
        | none => (none, { c with pending := kept })
        | some deadline =>
          let entry :=
            { siteReplyTo, correlationId := msg.header.correlationId, deadline : Pending }
          (some (.rewritten bytes mint evicted), { c with pending := kept ++ [(mint, entry)] })

/-- `ReplyCorrelator::take`. -/
def take (c : ReplyCorrelator) (bridgeTopic : String) : Option String × ReplyCorrelator :=
  match c.pending.find? fun p => p.1 = bridgeTopic with
  | none => (none, c)
  | some (_, entry) =>
    (some entry.siteReplyTo, { c with pending := c.pending.eraseP fun p => p.1 = bridgeTopic })

/-- `ReplyCorrelator::contains`. -/
def contains (c : ReplyCorrelator) (bridgeTopic : String) : Bool :=
  c.pending.any fun p => p.1 = bridgeTopic

/-- `ReplyCorrelator::sweep`: everything before the first entry that is not overdue is removed. -/
def sweep (c : ReplyCorrelator) (now : Instant) : List String × ReplyCorrelator :=
  let keepFrom := c.pending.findIdx fun p => now < p.2.deadline
  ((c.pending.take keepFrom).map Prod.fst, { c with pending := c.pending.drop keepFrom })

/-- `ReplyCorrelator::abandon`. -/
def abandon (c : ReplyCorrelator) (bridgeTopic : String) : ReplyCorrelator :=
  { c with pending := c.pending.filter fun p => p.1 ≠ bridgeTopic }

/-- `ReplyCorrelator::drain`. -/
def drain (c : ReplyCorrelator) : List String × ReplyCorrelator :=
  (c.pending.map Prod.fst, { c with pending := [] })

/-- `ReplyCorrelator::sweep_interval`: a quarter of the ttl, between 100 ms and 5 s. -/
def sweepInterval (c : ReplyCorrelator) : Duration :=
  max 100000000 (min (c.ttl / 4) (Duration.fromSecs 5))

/-! ### What one call does -/

/-- Everything that a call of `rewrite_downlink` can do. -/
inductive RewriteSpec (c : ReplyCorrelator) (codec : Codec Bytes ρ) (relayed : Bytes)
    (mint : String) (now : Instant) : Option (DownlinkRewrite Bytes) × ReplyCorrelator → Prop
  /-- The command does not decode, or the rewritten command does not encode. -/
  | malformed : RewriteSpec c codec relayed mint now (some (.drop .malformedEnvelope), c)
  /-- The command carries no `reply_to`. -/
  | passthrough {msg : Message ρ} (hdec : codec.fromSlice relayed = some msg)
      (hreply : msg.header.replyTo = none) :
      RewriteSpec c codec relayed mint now (some .passthrough, c)
  /-- The command is rewritten and recorded. -/
  | rewritten {msg : Message ρ} {site : String} {bytes : Bytes}
      (hdec : codec.fromSlice relayed = some msg) (hreply : msg.header.replyTo = some site)
      (henc : codec.toVec (msg.setReplyTo (some mint)) = some bytes)
      (hdeadline : Instant.checkedAdd now c.ttl = some (now + c.ttl)) :
      RewriteSpec c codec relayed mint now
        (some (.rewritten bytes mint c.evictOldest.1),
          { c with
            pending := c.evictOldest.2 ++ [(mint, ⟨site, msg.header.correlationId, now + c.ttl⟩)] })
  /-- The deadline addition panics. -/
  | panicked (hdeadline : Instant.checkedAdd now c.ttl = none) :
      RewriteSpec c codec relayed mint now (none, { c with pending := c.evictOldest.2 })

/-- `rewrite_downlink` does nothing else. -/
theorem rewriteDownlink_spec (c : ReplyCorrelator) (codec : Codec Bytes ρ) (relayed : Bytes)
    (mint : String) (now : Instant) :
    RewriteSpec c codec relayed mint now (c.rewriteDownlink codec relayed mint now) := by
  unfold rewriteDownlink
  cases hdec : codec.fromSlice relayed with
  | none => exact .malformed
  | some msg =>
    cases hreply : msg.header.replyTo with
    | none =>
      simp only [hreply]
      exact .passthrough hdec hreply
    | some site =>
      simp only [hreply]
      cases henc : codec.toVec (msg.setReplyTo (some mint)) with
      | none => exact .malformed
      | some bytes =>
        cases hdl : Instant.checkedAdd now c.ttl with
        | none => exact .panicked hdl
        | some deadline =>
          obtain rfl := Instant.eq_of_checkedAdd hdl
          exact .rewritten hdec hreply henc hdl

/-- The call for a command that asks for a reply path and can be encoded with the minted topic. -/
theorem rewriteDownlink_of_request (c : ReplyCorrelator) {codec : Codec Bytes ρ} {relayed : Bytes}
    {mint : String} (now : Instant) {msg : Message ρ} {site : String} {bytes : Bytes}
    (hdec : codec.fromSlice relayed = some msg) (hreply : msg.header.replyTo = some site)
    (henc : codec.toVec (msg.setReplyTo (some mint)) = some bytes) :
    c.rewriteDownlink codec relayed mint now =
      match Instant.checkedAdd now c.ttl with
      | none => (none, { c with pending := c.evictOldest.2 })
      | some deadline => (some (.rewritten bytes mint c.evictOldest.1), { c with
          pending :=
            c.evictOldest.2 ++ [(mint, ⟨site, msg.header.correlationId, deadline⟩)] }) := by
  simp only [rewriteDownlink, hdec, hreply, henc]

/-- The call for any other command drops it or passes it through. -/
theorem rewriteDownlink_of_no_request (c : ReplyCorrelator) {codec : Codec Bytes ρ}
    {relayed : Bytes} {mint : String} (now : Instant)
    (h : ∀ msg site, codec.fromSlice relayed = some msg → msg.header.replyTo = some site →
      codec.toVec (msg.setReplyTo (some mint)) = none) :
    c.rewriteDownlink codec relayed mint now = (some (.drop .malformedEnvelope), c) ∨
      c.rewriteDownlink codec relayed mint now = (some .passthrough, c) := by
  cases hdec : codec.fromSlice relayed with
  | none => exact Or.inl (by simp [rewriteDownlink, hdec])
  | some msg =>
    cases hreply : msg.header.replyTo with
    | none => exact Or.inr (by simp [rewriteDownlink, hdec, hreply])
    | some site => exact Or.inl (by simp [rewriteDownlink, hdec, hreply, h msg site hdec hreply])

/-- An eviction removes the front of a full map, and nothing from any other map. -/
theorem evictOldest_cases (c : ReplyCorrelator) :
    (c.pending.length < c.maxPending ∧ c.evictOldest = (none, c.pending)) ∨
      ∃ t p rest, c.maxPending ≤ c.pending.length ∧ c.pending = (t, p) :: rest ∧
        c.evictOldest = (some t, rest) := by
  unfold evictOldest
  by_cases hfull : c.maxPending ≤ c.pending.length
  · cases hp : c.pending with
    | nil =>
      rw [hp] at hfull
      exact absurd hfull (Nat.not_le.mpr c.maxPending_pos)
    | cons entry rest =>
      obtain ⟨t, p⟩ := entry
      rw [hp] at hfull
      have hfull' : c.maxPending ≤ rest.length + 1 := hfull
      exact Or.inr ⟨t, p, rest, hfull, rfl, by simp [hfull']⟩
  · exact Or.inl ⟨Nat.not_le.mp hfull, by simp [hfull]⟩

/-- An eviction adds nothing to the map. -/
theorem evictOldest_sublist (c : ReplyCorrelator) : c.evictOldest.2.Sublist c.pending := by
  rcases c.evictOldest_cases with ⟨-, hev⟩ | ⟨t, p, rest, -, hpending, hev⟩
  · rw [hev]
  · rw [hev, hpending]
    exact List.sublist_cons_self _ _

@[simp] theorem contains_eq_true_iff (c : ReplyCorrelator) (t : String) :
    c.contains t = true ↔ t ∈ c.topics := by
  simp [contains, topics]

/-- `take` fails exactly on topics without an entry, and then changes nothing. -/
theorem take_eq_none {c : ReplyCorrelator} {t : String} (h : (c.take t).1 = none) :
    t ∉ c.topics ∧ (c.take t).2 = c := by
  unfold take at h ⊢
  cases hf : c.pending.find? fun p => p.1 = t with
  | none =>
    have hnone := List.find?_eq_none.mp hf
    refine ⟨?_, rfl⟩
    rintro hmem
    obtain ⟨p, hp, rfl⟩ := List.mem_map.mp hmem
    exact hnone p hp (by simp)
  | some p => simp [hf] at h

/-- `take` resolves to the site topic of the entry and removes that entry. -/
theorem take_eq_some {c : ReplyCorrelator} {t site : String} (h : (c.take t).1 = some site) :
    ∃ before p after, c.pending = before ++ (t, p) :: after ∧ t ∉ before.map Prod.fst ∧
      p.siteReplyTo = site ∧ (c.take t).2 = { c with pending := before ++ after } := by
  unfold take at h ⊢
  cases hf : c.pending.find? fun p => p.1 = t with
  | none => simp [hf] at h
  | some q =>
    obtain ⟨t', p⟩ := q
    obtain ⟨ht, before, after, hsplit, hbefore⟩ := List.find?_eq_some_iff_append.mp hf
    obtain rfl : t' = t := by simpa using ht
    have hnot : ∀ q ∈ before, ¬ (decide (q.1 = t') = true) := by simpa using hbefore
    refine ⟨before, p, after, hsplit, ?_, ?_, ?_⟩
    · rintro hmem
      obtain ⟨q, hq, hq'⟩ := List.mem_map.mp hmem
      exact hnot q hq (by simp [hq'])
    · simpa [hf] using h
    · have herase : c.pending.eraseP (fun q => decide (q.1 = t')) = before ++ after := by
        rw [hsplit, List.eraseP_append_right _ hnot, List.eraseP_cons_of_pos (by simp)]
      simp [herase]

/-- `sweep` splits the map into a prefix, which it returns, and the rest, which it keeps. -/
theorem sweep_append (c : ReplyCorrelator) (now : Instant) :
    c.topics = (c.sweep now).1 ++ (c.sweep now).2.topics := by
  simp [sweep, topics]

end ReplyCorrelator

section PrepareReply

variable {Bytes ρ : Type} [Inhabited ρ]

/-- `prepare_reply`. -/
def prepareReply (e : RelayEngine) (codec : Codec Bytes ρ) (payload : Bytes) : ReplyRelay Bytes :=
  match codec.fromSlice payload with
  | none => .drop .malformedEnvelope
  | some msg =>
    match e.stampHop (msg.setReplyTo none) with
    | .error reason => .drop reason
    | .ok msg =>
      match codec.toVec msg with
      | none => .drop .malformedEnvelope
      | some bytes => .forward bytes

/-- `prepare_reply` forwards exactly the replies that decode, pass the hop rules without their
`reply_to` and encode again. -/
theorem prepareReply_eq_forward_iff {e : RelayEngine} {codec : Codec Bytes ρ}
    {payload bytes : Bytes} :
    prepareReply e codec payload = .forward bytes ↔
      ∃ msg msg', codec.fromSlice payload = some msg ∧
        e.stampHop (msg.setReplyTo none) = .ok msg' ∧ codec.toVec msg' = some bytes := by
  unfold prepareReply
  cases codec.fromSlice payload with
  | none => simp
  | some msg =>
    cases hstamp : e.stampHop (msg.setReplyTo none) with
    | error reason => simp [hstamp]
    | ok msg' =>
      cases henc : codec.toVec msg' with
      | none => simp [hstamp, henc]
      | some out => simp [hstamp, henc]

end PrepareReply

end UnsBridge
