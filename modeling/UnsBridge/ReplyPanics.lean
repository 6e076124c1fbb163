import UnsBridge.ConfigFile
import UnsBridge.ReplyReference

/-!
# Panics of the reply proxy

The methods of `ReplyCorrelator` once more, with the panics of the library calls they make:
`Vec::remove` and `Vec::drain` out of range, a division of a `Duration` by zero, `clamp` with
crossed bounds, and the addition of an `Instant` and a `Duration`.  Only the addition can panic; it
comes after the eviction, so that the evicted entry of a full map is lost with it.  The ttl that a
configuration may ask for is any number of seconds below `2 ^ 64`, and `reply_proxy_safe_iff` says
for which instants that is too much.
-/

namespace UnsBridge

/-! ### The library calls -/

/-- `Vec::remove`. -/
def vecRemove {α : Type} (xs : List α) (index : ℕ) : Option (α × List α) :=
  xs[index]?.map fun x => (x, xs.eraseIdx index)

/-- `Vec::drain` of a prefix: what is drained, and what is kept. -/
def vecDrain {α : Type} (xs : List α) (stop : ℕ) : Option (List α × List α) :=
  if stop ≤ xs.length then some (xs.take stop, xs.drop stop) else none

/-- The division of a `Duration` by an integer. -/
def Duration.div (d : Duration) (k : ℕ) : Option Duration := if k = 0 then none else some (d / k)

/-- `Ord::clamp`. -/
def Duration.clamp (d lo hi : Duration) : Option Duration :=
  if lo ≤ hi then some (if d < lo then lo else if hi < d then hi else d) else none

/-- A clamp with ordered bounds. -/
theorem Duration.clamp_eq {d lo hi : ℕ} (h : lo ≤ hi) :
    Duration.clamp d lo hi = some (max lo (min d hi)) := by
  have hclamp : Duration.clamp d lo hi = some (if d < lo then lo else if hi < d then hi else d) :=
    if_pos h
  rw [hclamp, Option.some_inj]
  split_ifs <;> omega

/-- `SWEEP_MIN`. -/
def SWEEP_MIN : Duration := 100000000

/-- `SWEEP_MAX`. -/
def SWEEP_MAX : Duration := Duration.fromSecs 5

/-! ### The methods with their panics -/

namespace ReplyCorrelator

variable {Bytes ρ : Type}

/-- The eviction and the push of `rewrite_downlink`: the evicted topic, and the entries after it. -/
def pushPanicking (c : ReplyCorrelator) (bridgeTopic : String) (entry : Instant → Pending)
    (now : Instant) : Option (Option String) × ReplyCorrelator :=
  match if c.maxPending ≤ c.pending.length then
      (vecRemove c.pending 0).map fun (oldest, kept) => (some oldest.1, kept)
    else some (none, c.pending) with
  | none => (none, c)
  | some (evicted, kept) =>
    match Instant.checkedAdd now c.ttl with
    | none => (none, { c with pending := kept })
    | some deadline => (some evicted, { c with pending := kept ++ [(bridgeTopic, entry deadline)] })

/-- `ReplyCorrelator::rewrite_downlink`, `none` where it panics, and the map that it leaves. -/
def rewriteDownlinkPanicking (c : ReplyCorrelator) (codec : Codec Bytes ρ) (relayed : Bytes)
    (mint : String) (now : Instant) : Option (DownlinkRewrite Bytes) × ReplyCorrelator :=
  match codec.fromSlice relayed with
  | none => (some (.drop .malformedEnvelope), c)
  | some msg =>
    match msg.header.replyTo with
    | none => (some .passthrough, c)
    | some siteReplyTo =>
      match codec.toVec (msg.setReplyTo (some mint)) with
      | none => (some (.drop .malformedEnvelope), c)
      | some bytes =>
        let (evicted, c) := c.pushPanicking mint
          (fun deadline => { siteReplyTo, correlationId := msg.header.correlationId, deadline }) now
        (evicted.map fun evicted => .rewritten bytes mint evicted, c)

/-- `ReplyCorrelator::take`, `none` where it panics. -/
def takePanicking (c : ReplyCorrelator) (bridgeTopic : String) :
    Option (Option String × ReplyCorrelator) :=
  match c.pending.findIdx? fun p => p.1 = bridgeTopic with
  | none => some (none, c)
  | some idx => (vecRemove c.pending idx).map fun (entry, pending) =>
    (some entry.2.siteReplyTo, { c with pending })

/-- `ReplyCorrelator::sweep`, `none` where it panics. -/
def sweepPanicking (c : ReplyCorrelator) (now : Instant) :
    Option (List String × ReplyCorrelator) :=
  let keepFrom := (c.pending.findIdx? fun p => now < p.2.deadline).getD c.pending.length
  (vecDrain c.pending keepFrom).map fun (stale, pending) =>
    (stale.map Prod.fst, { c with pending })

/-- `ReplyCorrelator::sweep_interval`, `none` where it panics. -/
def sweepIntervalPanicking (c : ReplyCorrelator) : Option Duration :=
  (Duration.div c.ttl 4).bind fun quarter => Duration.clamp quarter SWEEP_MIN SWEEP_MAX

variable {c : ReplyCorrelator}

/-- The eviction removes an entry that exists. -/
theorem pushPanicking_eq (c : ReplyCorrelator) (bridgeTopic : String) (entry : Instant → Pending)
    (now : Instant) : c.pushPanicking bridgeTopic entry now =
      match Instant.checkedAdd now c.ttl with
      | none => (none, { c with pending := c.evictOldest.2 })
      | some deadline => (some c.evictOldest.1,
          { c with pending := c.evictOldest.2 ++ [(bridgeTopic, entry deadline)] }) := by
  unfold pushPanicking
  rcases c.evictOldest_cases with ⟨hroom, hevict⟩ | ⟨t, p, rest, hfull, hpending, hevict⟩
  · rw [if_neg (Nat.not_le.mpr hroom), hevict]
  · rw [if_pos hfull, hpending, hevict]
    rfl

/-- The only panic of `rewrite_downlink` is that of the deadline. -/
theorem rewriteDownlinkPanicking_eq (c : ReplyCorrelator) (codec : Codec Bytes ρ) (relayed : Bytes)
    (mint : String) (now : Instant) : c.rewriteDownlinkPanicking codec relayed mint now =
      c.rewriteDownlink codec relayed mint now := by
  unfold rewriteDownlinkPanicking rewriteDownlink
  cases codec.fromSlice relayed with
  | none => rfl
  | some msg =>
    cases hreply : msg.header.replyTo with
    | none => simp only [hreply]
    | some site =>
      simp only [hreply, pushPanicking_eq]
      cases codec.toVec (msg.setReplyTo (some mint)) with
      | none => rfl
      | some bytes => cases Instant.checkedAdd now c.ttl <;> rfl

/-- The entry that `take` removes exists. -/
theorem takePanicking_eq (c : ReplyCorrelator) (t : String) :
    c.takePanicking t = some (c.take t) := by
  unfold takePanicking take
  rw [List.eraseP_eq_eraseIdx, List.find?_eq_getElem?_findIdx]
  cases hidx : c.pending.findIdx? fun p => p.1 = t with
  | none =>
    have hout : c.pending.length ≤ c.pending.findIdx fun p => p.1 = t :=
      (List.findIdx?_eq_none_iff_findIdx_eq.mp hidx).ge
    rw [List.getElem?_eq_none hout]
  | some idx =>
    obtain ⟨hlt, hfind⟩ := List.findIdx?_eq_some_iff_findIdx_eq.mp hidx
    rw [hfind]
    simp [vecRemove, List.getElem?_eq_getElem hlt]

/-- The prefix that `sweep` drains is in range. -/
theorem sweepPanicking_eq (c : ReplyCorrelator) (now : Instant) :
    c.sweepPanicking now = some (c.sweep now) := by
  have hfrom : (c.pending.findIdx? fun p => now < p.2.deadline).getD c.pending.length =
      c.pending.findIdx fun p => now < p.2.deadline := by
    cases hidx : c.pending.findIdx? fun p => now < p.2.deadline with
    | none => exact (List.findIdx?_eq_none_iff_findIdx_eq.mp hidx).symm
    | some idx => exact (List.findIdx?_eq_some_iff_findIdx_eq.mp hidx).2.symm
  unfold sweepPanicking sweep
  rw [hfrom]
  simp [vecDrain, List.findIdx_le_length]

/-- The sweep interval neither divides by zero nor crosses its bounds. -/
theorem sweepIntervalPanicking_eq (c : ReplyCorrelator) :
    c.sweepIntervalPanicking = some c.sweepInterval := by
  have hbounds : SWEEP_MIN ≤ SWEEP_MAX := by decide
  rw [sweepIntervalPanicking, Duration.div, if_neg (by decide), Option.bind_some,
    Duration.clamp_eq hbounds]
  rfl

/-- No call changes the ttl. -/
theorem ttl_call (codec : Codec Bytes ρ) (c : ReplyCorrelator) (a : MapCall Bytes) :
    (c.call codec a).2.ttl = c.ttl := by
  cases a with
  | rewriteDownlink relayed mint now =>
    have hspec := c.rewriteDownlink_spec codec relayed mint now
    simp only [call]
    generalize c.rewriteDownlink codec relayed mint now = r at hspec
    cases hspec <;> rfl
  | take t =>
    simp only [call, ReplyCorrelator.take]
    split <;> rfl
  | _ => rfl

/-- No sequence of calls changes the ttl. -/
theorem ttl_run (codec : Codec Bytes ρ) (c : ReplyCorrelator) (calls : List (MapCall Bytes)) :
    (c.run codec calls).2.ttl = c.ttl := by
  induction calls generalizing c with
  | nil => rfl
  | cons a calls ih => exact (ih _).trans (c.ttl_call codec a)

/-- A call of the reply proxy goes well: nothing panics, the sweep period is positive, and an entry
that an eviction removes is handed to the caller. -/
structure Safe (c : ReplyCorrelator) (codec : Codec Bytes ρ) (relayed : Bytes) (mint : String)
    (now : Instant) : Prop where
  rewrite : (c.rewriteDownlinkPanicking codec relayed mint now).1.isSome = true
  take : ∀ t, (c.takePanicking t).isSome = true
  sweep : ∀ now, (c.sweepPanicking now).isSome = true
  interval : ∃ period, c.sweepIntervalPanicking = some period ∧ 0 < period
  returned : ∀ t ∈ c.topics, t ∈ (c.rewriteDownlinkPanicking codec relayed mint now).2.topics ∨
    ∃ bytes bridgeTopic, (c.rewriteDownlinkPanicking codec relayed mint now).1 =
      some (.rewritten bytes bridgeTopic (some t))

/-- When a command asks for an entry. -/
theorem request_isSome_iff {codec : Codec Bytes ρ} {relayed : Bytes} {mint : String} :
    (Reference.request codec relayed mint).isSome = true ↔ ∃ msg site bytes,
      codec.fromSlice relayed = some msg ∧ msg.header.replyTo = some site ∧
        codec.toVec (msg.setReplyTo (some mint)) = some bytes := by
  constructor
  · intro h
    obtain ⟨p, h⟩ := Option.isSome_iff_exists.mp h
    obtain ⟨msg, hdec, h⟩ := Option.bind_eq_some_iff.mp h
    obtain ⟨site, hreply, h⟩ := Option.bind_eq_some_iff.mp h
    obtain ⟨bytes, henc, -⟩ := Option.map_eq_some_iff.mp h
    exact ⟨msg, site, bytes, hdec, hreply, henc⟩
  · rintro ⟨msg, site, bytes, hdec, hreply, henc⟩
    simp [Reference.request, hdec, hreply, henc]

/-- A call goes well exactly if the command asks for no entry, or the deadline of the entry is in
range. -/
theorem safe_iff (c : ReplyCorrelator) (codec : Codec Bytes ρ) (relayed : Bytes) (mint : String)
    (now : Instant) : c.Safe codec relayed mint now ↔
      ((Reference.request codec relayed mint).isSome = true →
        now + c.ttl < 2 ^ 63 * 1000000000) := by
  have hsafe : c.Safe codec relayed mint now ↔
      (c.rewriteDownlink codec relayed mint now).1.isSome = true ∧
        ∀ t ∈ c.topics, t ∈ (c.rewriteDownlink codec relayed mint now).2.topics ∨
          ∃ bytes bridgeTopic, (c.rewriteDownlink codec relayed mint now).1 =
            some (.rewritten bytes bridgeTopic (some t)) := by
    rw [← rewriteDownlinkPanicking_eq]
    refine ⟨fun h => ⟨h.rewrite, h.returned⟩, fun h => ⟨h.1, fun t => ?_, fun now => ?_, ?_, h.2⟩⟩
    · simp [takePanicking_eq]
    · simp [sweepPanicking_eq]
    · exact ⟨_, c.sweepIntervalPanicking_eq, lt_of_lt_of_le (by decide) (le_max_left _ _)⟩
  rw [hsafe]
  by_cases hrequest : (Reference.request codec relayed mint).isSome = true
  · obtain ⟨msg, site, bytes, hdec, hreply, henc⟩ := request_isSome_iff.mp hrequest
    rw [c.rewriteDownlink_of_request now hdec hreply henc]
    simp only [hrequest, true_imp_iff, Instant.checkedAdd]
    split_ifs with hrange
    · simp only [hrange, iff_true, Option.isSome_some, true_and]
      intro t ht
      rcases c.evictOldest_cases with ⟨-, hevict⟩ | ⟨oldest, p, rest, -, hpending, hevict⟩
      · have hkept : t ∈ c.pending.map Prod.fst := ht
        exact Or.inl (by simp [topics, hevict, hkept])
      · have hmem : t = oldest ∨ t ∈ rest.map Prod.fst := by
          simpa [topics, hpending] using ht
        rcases hmem with rfl | hkept
        · exact Or.inr ⟨bytes, mint, by rw [hevict]⟩
        · exact Or.inl (by simp [topics, hevict, hkept])
    · exact iff_of_false (by simp) hrange
  · have hnone : ∀ msg site, codec.fromSlice relayed = some msg → msg.header.replyTo = some site →
        codec.toVec (msg.setReplyTo (some mint)) = none := by
      intro msg site hdec hreply
      by_contra hne
      obtain ⟨bytes, henc⟩ := Option.ne_none_iff_exists'.mp hne
      exact hrequest (request_isSome_iff.mpr ⟨msg, site, bytes, hdec, hreply, henc⟩)
    simp only [hrequest, false_imp_iff, iff_true, Bool.false_eq_true]
    rcases c.rewriteDownlink_of_no_request now hnone with heq | heq
    · rw [heq]
      exact ⟨rfl, fun t ht => Or.inl ht⟩
    · rw [heq]
      exact ⟨rfl, fun t ht => Or.inl ht⟩

end ReplyCorrelator

/-- The reader takes every ttl and every bound of 64 bits. -/
theorem ReplyConfig.exists_fromValue_iff (cfg : ReplyConfig) :
    (∃ v, ReplyConfig.fromValue v = some cfg) ↔ cfg.ttlSecs < 2 ^ 64 ∧ cfg.maxPending < 2 ^ 64 := by
  have hread : ∀ {default n : ℕ} {field : Option Value}, default < 2 ^ 64 →
      readField (Value.asUnsigned 64) default field = some n → n < 2 ^ 64 := by
    intro default n field hdefault h
    cases field with
    | none => exact Option.some.inj h ▸ hdefault
    | some v =>
      obtain ⟨-, hlt⟩ := Value.asUnsigned_eq_some_iff.mp h
      exact hlt
  constructor
  · rintro ⟨v, h⟩
    obtain ⟨field, -, h⟩ := Option.bind_eq_some_iff.mp h
    obtain ⟨ttlSecs, httl, h⟩ := Option.bind_eq_some_iff.mp h
    obtain ⟨maxPending, hmax, h⟩ := Option.bind_eq_some_iff.mp h
    obtain rfl := Option.some.inj h
    exact ⟨hread (by decide) httl, hread (by decide) hmax⟩
  · rintro ⟨httl, hmax⟩
    have hnumber : ∀ default n : ℕ, n < 2 ^ 64 →
        readField (Value.asUnsigned 64) default (some (.number (.posInt n))) = some n :=
      fun default n hn => Value.asUnsigned_eq_some_iff.mpr ⟨rfl, hn⟩
    refine ⟨.object [("ttlSecs", .number (.posInt cfg.ttlSecs)),
      ("maxPending", .number (.posInt cfg.maxPending))], ?_⟩
    change (readField (Value.asUnsigned 64) _ (some (.number (.posInt cfg.ttlSecs)))).bind
      (fun ttlSecs => (readField (Value.asUnsigned 64) _
        (some (.number (.posInt cfg.maxPending)))).bind fun maxPending =>
          some (ReplyConfig.mk ttlSecs maxPending)) = some cfg
    rw [hnumber _ _ httl, Option.bind_some, hnumber _ _ hmax, Option.bind_some]

/-- No configuration makes the reply proxy panic, except by a deadline out of range.  The reader
accepts every ttl below `2 ^ 64` seconds.  For every reply section that it accepts, every map that
any calls lead to from the new one, every command and every instant: nothing panics, the sweep
period is positive and no evicted entry is lost, exactly if the command carries no `reply_to` (or
cannot be decoded, or not be encoded again), or the instant and the ttl of the section add up to
less than `2 ^ 63` seconds. -/
theorem reply_proxy_safe_iff {Bytes ρ : Type} (codec : Codec Bytes ρ) :
    (∀ cfg, (∃ v, ReplyConfig.fromValue v = some cfg) ↔
      cfg.ttlSecs < 2 ^ 64 ∧ cfg.maxPending < 2 ^ 64) ∧
    ∀ v cfg, ReplyConfig.fromValue v = some cfg → ∀ calls relayed mint now,
      (((ReplyCorrelator.new cfg.ttl cfg.maxPending).run codec calls).2.Safe codec relayed mint
          now ↔
        ((Reference.request codec relayed mint).isSome = true →
          now + cfg.ttlSecs * 1000000000 < 2 ^ 63 * 1000000000)) := by
  refine ⟨ReplyConfig.exists_fromValue_iff, fun v cfg _ calls relayed mint now => ?_⟩
  rw [ReplyCorrelator.safe_iff, ReplyCorrelator.ttl_run]
  simp [ReplyCorrelator.new, ReplyConfig.ttl, Duration.fromSecs]

/-- A reply section with one entry and the longest ttl that an instant at the epoch can bear. -/
def ReplyConfig.longest : Value :=
  .object [("ttlSecs", .number (.posInt 9223372036854775807)), ("maxPending", .number (.posInt 1))]

/-- The map of that section after a command at the epoch. -/
def ReplyCorrelator.filled : ReplyCorrelator :=
  ((ReplyCorrelator.new (Duration.fromSecs 9223372036854775807) 1).run (Codec.plain Unit)
    [.rewriteDownlink (.sample (some "site/replies/7")) "r-1" 0]).2

/-- The reader accepts the section; one second later a second command panics, and the entry of the
first one is gone. -/
theorem late_command_loses_entry :
    ReplyConfig.fromValue ReplyConfig.longest = some ⟨9223372036854775807, 1⟩ ∧
    ReplyCorrelator.filled.topics = ["r-1"] ∧
    (ReplyCorrelator.filled.rewriteDownlinkPanicking (Codec.plain Unit)
      (.sample (some "site/replies/8")) "r-2" 1000000000).1 = none ∧
    (ReplyCorrelator.filled.rewriteDownlinkPanicking (Codec.plain Unit)
      (.sample (some "site/replies/8")) "r-2" 1000000000).2.topics = [] ∧
    ¬ ReplyCorrelator.filled.Safe (Codec.plain Unit) (.sample (some "site/replies/8")) "r-2"
      1000000000 := by
  have hpanic : (ReplyCorrelator.filled.rewriteDownlinkPanicking (Codec.plain Unit)
      (.sample (some "site/replies/8")) "r-2" 1000000000).1 = none := by decide
  refine ⟨rfl, by decide, hpanic, by decide, fun h => ?_⟩
  simpa [hpanic] using h.rewrite

/-- At the epoch itself the second command goes well: it evicts the first one from the full map, and
the topic of the evicted entry is handed to the caller. -/
theorem reply_proxy_safe_evicting :
    ReplyCorrelator.filled.pending.length = ReplyCorrelator.filled.maxPending ∧
    ReplyCorrelator.filled.Safe (Codec.plain Unit) (.sample (some "site/replies/8")) "r-2" 0 ∧
    ∃ bytes bridgeTopic, (ReplyCorrelator.filled.rewriteDownlinkPanicking (Codec.plain Unit)
      (.sample (some "site/replies/8")) "r-2" 0).1 =
        some (.rewritten bytes bridgeTopic (some "r-1")) := by
  have hsafe := ((reply_proxy_safe_iff (Codec.plain Unit)).2 ReplyConfig.longest _ rfl
    [.rewriteDownlink (.sample (some "site/replies/7")) "r-1" 0]
    (.sample (some "site/replies/8")) "r-2" 0).mpr fun _ => by decide
  have hleft : "r-1" ∉ (ReplyCorrelator.filled.rewriteDownlinkPanicking (Codec.plain Unit)
      (.sample (some "site/replies/8")) "r-2" 0).2.topics := by decide
  exact ⟨by decide, hsafe, (hsafe.returned "r-1" (by decide)).resolve_left hleft⟩

end UnsBridge
