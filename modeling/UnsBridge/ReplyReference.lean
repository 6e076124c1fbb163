import UnsBridge.Lib.Collections
import UnsBridge.Lib.Ledger
import UnsBridge.Reply

/-!
# The correlation map against its reference

What the correlation map is for, in its own terms: a history records which topic was minted for
which site reply topic until when, and which topic left the map for which reason, and the map holds
what the history leaves live.  `Reference` answers every call from the history alone.

`call_refines` shows that one call of the correlator answers as the reference does and keeps the
simulation `Refines`, whose hidden part is that the deadlines are sorted; `run_refines` is the same
for whole call sequences, and `correlator_refines_reference` collects what follows for the map.
-/

namespace UnsBridge

open Ledger

/-- A call of an operation of the correlation map. -/
inductive MapCall (Bytes : Type) where
  | rewriteDownlink (relayed : Bytes) (mint : String) (now : Instant)
  | take (bridgeTopic : String)
  | contains (bridgeTopic : String)
  | sweep (now : Instant)
  | abandon (bridgeTopic : String)
  | drain

/-- What a call returns. -/
inductive MapAnswer (Bytes : Type) where
  | rewrite (action : Option (DownlinkRewrite Bytes))
  | resolved (siteReplyTo : Option String)
  | present (live : Bool)
  | removed (topics : List String)
  | unit

variable {Bytes ρ : Type}

/-- The instant injected into a call. -/
def MapCall.instant : MapCall Bytes → Option Instant
  | .rewriteDownlink _ _ now => some now
  | .sweep now => some now
  | _ => none

/-- The topic that a call mints. -/
def MapCall.mint : MapCall Bytes → Option String
  | .rewriteDownlink _ mint _ => some mint
  | _ => none

/-- The injected instants never decrease, the minted topics are pairwise different, and no deadline
overflows. -/
structure Admissible (ttl : Duration) (calls : List (MapCall Bytes)) : Prop where
  times : (calls.filterMap MapCall.instant).Pairwise (· ≤ ·)
  mints : (calls.filterMap MapCall.mint).Nodup
  noOverflow : ∀ relayed mint now, .rewriteDownlink relayed mint now ∈ calls →
    Instant.checkedAdd now ttl = some (now + ttl)

namespace ReplyCorrelator

/-- One call. -/
def call (codec : Codec Bytes ρ) (c : ReplyCorrelator) :
    MapCall Bytes → MapAnswer Bytes × ReplyCorrelator
  | .rewriteDownlink relayed mint now =>
    let (action, c) := c.rewriteDownlink codec relayed mint now
    (.rewrite action, c)
  | .take t =>
    let (siteReplyTo, c) := c.take t
    (.resolved siteReplyTo, c)
  | .contains t => (.present (c.contains t), c)
  | .sweep now =>
    let (topics, c) := c.sweep now
    (.removed topics, c)
  | .abandon t => (.unit, c.abandon t)
  | .drain =>
    let (topics, c) := c.drain
    (.removed topics, c)

/-- A sequence of calls. -/
def run (codec : Codec Bytes ρ) :
    ReplyCorrelator → List (MapCall Bytes) → List (MapAnswer Bytes) × ReplyCorrelator
  | c, [] => ([], c)
  | c, a :: calls =>
    let (answer, c) := c.call codec a
    let (answers, c) := c.run codec calls
    (answer :: answers, c)

/-- The entries of the correlator, with the data of a reference entry. -/
def entries (c : ReplyCorrelator) : List (String × String × Instant) :=
  c.pending.map fun p => (p.1, p.2.siteReplyTo, p.2.deadline)

/-- The topics are the keys of the entries. -/
theorem map_fst_entries (c : ReplyCorrelator) : c.entries.map Prod.fst = c.topics := by
  simp [entries, topics]

end ReplyCorrelator

/-! ### The reference map -/

/-- Why an entry leaves the map. -/
inductive Exit where
  | taken | evicted | swept | abandoned | drained
  deriving DecidableEq, Repr

/-- The history of a correlation map: a minted topic enters with its site reply topic and its
deadline. -/
abbrev MapHistory : Type := List (Event String (String × Instant) Exit)

namespace Reference

/-- The entry that a command asks for: its decoded `reply_to`, provided that the rewritten command
encodes to the given bytes. -/
def request (codec : Codec Bytes ρ) (relayed : Bytes) (mint : String) : Option (String × Bytes) :=
  (codec.fromSlice relayed).bind fun msg => msg.header.replyTo.bind fun site =>
    (codec.toVec (msg.setReplyTo (some mint))).map fun bytes => (site, bytes)

/-- The oldest live topic, if the map is full. -/
def victim (bound : ℕ) (h : MapHistory) : Option String :=
  if (live h).length < bound then none else (live h).head?.map Prod.fst

/-- The answer of the reference to a call after the history `h`, and the history after it. -/
def call (codec : Codec Bytes ρ) (ttl : Duration) (bound : ℕ) (h : MapHistory) :
    MapCall Bytes → MapAnswer Bytes × MapHistory
  | .rewriteDownlink relayed mint now =>
    match request codec relayed mint with
    | some (site, bytes) =>
      (.rewrite (some (.rewritten bytes mint (victim bound h))),
        h ++ leaves (victim bound h).toList .evicted ++ [.enter mint (site, now + ttl)])
    | none =>
      match (codec.fromSlice relayed).map fun msg => msg.header.replyTo with
      | some none => (.rewrite (some .passthrough), h)
      | _ => (.rewrite (some (.drop .malformedEnvelope)), h)
  | .take t =>
    match (live h).lookup t with
    | some (site, _) => (.resolved (some site), h ++ leaves [t] .taken)
    | none => (.resolved none, h)
  | .contains t => (.present (t ∈ (live h).map Prod.fst), h)
  | .sweep now =>
    let overdue := ((live h).filter fun p => p.2.2 ≤ now).map Prod.fst
    (.removed overdue, h ++ leaves overdue .swept)
  | .abandon t => (.unit, if t ∈ (live h).map Prod.fst then h ++ leaves [t] .abandoned else h)
  | .drain => (.removed ((live h).map Prod.fst), h ++ leaves ((live h).map Prod.fst) .drained)

/-- The answers of the reference to a sequence of calls. -/
def run (codec : Codec Bytes ρ) (ttl : Duration) (bound : ℕ) :
    MapHistory → List (MapCall Bytes) → List (MapAnswer Bytes) × MapHistory
  | h, [] => ([], h)
  | h, a :: calls =>
    let (answer, h) := call codec ttl bound h a
    let (answers, h) := run codec ttl bound h calls
    (answer :: answers, h)

end Reference

/-! ### The simulation -/

/-- The correlator holds what the history leaves live, within its bound.  For this to stay so, the
deadlines are sorted, no later deadline is earlier than a live one, and the topics that later calls
mint are new. -/
structure Refines (ttl : Duration) (bound : ℕ) (later : List (MapCall Bytes)) (c : ReplyCorrelator)
    (h : MapHistory) : Prop where
  entries_eq : c.entries = live h
  ttl_eq : c.ttl = ttl
  maxPending_eq : c.maxPending = bound
  length_le : (live h).length ≤ bound
  oneShot : OneShot h
  sorted : (live h).Pairwise fun p q => p.2.2 ≤ q.2.2
  timely : ∀ p ∈ live h, ∀ t ∈ later.filterMap MapCall.instant, p.2.2 ≤ t + ttl
  fresh : ∀ t ∈ later.filterMap MapCall.mint, t ∉ (entered h).map Prod.fst

namespace Refines

variable {ttl : Duration} {bound : ℕ} {later : List (MapCall Bytes)} {c : ReplyCorrelator}
  {h : MapHistory} {a : MapCall Bytes}

/-- A new map. -/
theorem new (ttl : Duration) (maxPending : ℕ) (later : List (MapCall Bytes)) :
    Refines ttl (max 1 maxPending) later (ReplyCorrelator.new ttl maxPending) [] where
  entries_eq := rfl
  ttl_eq := rfl
  maxPending_eq := Nat.max_comm _ _
  length_le := Nat.zero_le _
  oneShot := .nil
  sorted := List.Pairwise.nil
  timely := by simp
  fresh := by simp

/-- Fewer calls are still to come. -/
theorem tail (hr : Refines ttl bound (a :: later) c h) : Refines ttl bound later c h :=
  { hr with
    timely := fun p hp t ht => hr.timely p hp t <| by
      rw [List.filterMap_cons]
      cases a.instant with
      | none => exact ht
      | some _ => exact List.mem_cons_of_mem _ ht
    fresh := fun t ht => hr.fresh t <| by
      rw [List.filterMap_cons]
      cases a.mint with
      | none => exact ht
      | some _ => exact List.mem_cons_of_mem _ ht }

/-- The live topics are those of the correlator. -/
theorem live_keys (hr : Refines ttl bound later c h) : (live h).map Prod.fst = c.topics := by
  rw [← hr.entries_eq, c.map_fst_entries]

/-- The correlator is as long as what is live. -/
theorem length_eq (hr : Refines ttl bound later c h) : c.pending.length = (live h).length := by
  rw [← hr.entries_eq, ReplyCorrelator.entries, List.length_map]

/-- Distinct live topics leave the map. -/
theorem leaves (hr : Refines ttl bound later c h) {ks : List String} (hnodup : ks.Nodup)
    (hlive : ∀ t ∈ ks, t ∈ (live h).map Prod.fst) (r : Exit) {c' : ReplyCorrelator}
    (hent : c'.entries = (live h).filter fun p => p.1 ∉ ks) (httl : c'.ttl = c.ttl)
    (hbound : c'.maxPending = c.maxPending) :
    Refines ttl bound later c' (h ++ Ledger.leaves ks r) := by
  have hfilter := live_append_leaves (h := h) ks r
  refine ⟨hent.trans hfilter.symm, httl.trans hr.ttl_eq, hbound.trans hr.maxPending_eq, ?_,
    hr.oneShot.append_leaves hnodup hlive r, ?_, ?_, ?_⟩
  · rw [hfilter]
    exact (List.length_filter_le _ _).trans hr.length_le
  · rw [hfilter]
    exact hr.sorted.filter _
  · rw [hfilter]
    exact fun p hp => hr.timely p (List.mem_of_mem_filter hp)
  · simpa using hr.fresh

/-- A new topic enters the map, which has room for it. -/
theorem enter (hr : Refines ttl bound later c h) {mint : String} (p : Pending) {now : Instant}
    (hmint : mint ∉ (entered h).map Prod.fst) (hroom : (live h).length < bound)
    (hp : p.deadline = now + ttl) (hlive : ∀ q ∈ live h, q.2.2 ≤ now + ttl)
    (hlater : ∀ t ∈ later.filterMap MapCall.instant, now ≤ t)
    (hmints : mint ∉ later.filterMap MapCall.mint) :
    Refines ttl bound later { c with pending := c.pending ++ [(mint, p)] }
      (h ++ [.enter mint (p.siteReplyTo, now + ttl)]) := by
  have happend := live_append_enter (hr.oneShot.notMem_left hmint) (p.siteReplyTo, now + ttl)
  refine ⟨?_, hr.ttl_eq, hr.maxPending_eq, ?_, hr.oneShot.append_enter hmint _, ?_, ?_, ?_⟩
  · rw [happend, ← hr.entries_eq]
    simp [ReplyCorrelator.entries, hp]
  · rw [happend, List.length_append, List.length_singleton]
    exact hroom
  · rw [happend, List.pairwise_append]
    refine ⟨hr.sorted, List.pairwise_singleton _ _, ?_⟩
    rintro q hq _ hmem
    rw [List.mem_singleton.mp hmem]
    exact hlive q hq
  · rw [happend]
    intro q hq t ht
    rcases List.mem_append.mp hq with hq | hq
    · exact hr.timely q hq t ht
    · rw [List.mem_singleton.mp hq]
      exact Int.add_le_add_right (hlater t ht) _
  · intro t ht hmem
    simp only [entered_append, entered_enter, List.map_append, List.map_cons, List.map_nil,
      List.mem_append, List.mem_singleton] at hmem
    rcases hmem with hmem | rfl
    · exact hr.fresh t ht hmem
    · exact hmints ht

/-- The eviction removes the reference's victim and leaves room. -/
theorem evict (hr : Refines ttl bound later c h) :
    c.evictOldest.1 = Reference.victim bound h ∧
      Refines ttl bound later { c with pending := c.evictOldest.2 }
        (h ++ Ledger.leaves (Reference.victim bound h).toList .evicted) ∧
      (live (h ++ Ledger.leaves (Reference.victim bound h).toList .evicted)).length < bound := by
  have hlen := hr.length_eq
  have hent := hr.entries_eq
  unfold Reference.victim
  rcases c.evictOldest_cases with ⟨hroom, hev⟩ | ⟨t, p, rest, hfull, hpend, hev⟩
  · rw [hr.maxPending_eq, hlen] at hroom
    rw [hev]
    simpa [hroom, Ledger.leaves] using hr
  · rw [hr.maxPending_eq, hlen] at hfull
    have hcons : live h = (t, p.siteReplyTo, p.deadline) ::
        rest.map fun q => (q.1, q.2.siteReplyTo, q.2.deadline) := by
      rw [← hent, ReplyCorrelator.entries, hpend, List.map_cons]
    have hnodup := hr.oneShot.nodup_live
    rw [hcons, List.map_cons, List.nodup_cons] at hnodup
    have hrest : (live h).filter (fun q => q.1 ∉ [t]) =
        rest.map fun q => (q.1, q.2.siteReplyTo, q.2.deadline) := by
      rw [hcons, List.filter_cons_of_neg (by simp)]
      simpa using Collections.filter_key_ne_of_notMem hnodup.1
    rw [if_neg (Nat.not_lt.mpr hfull), hev, hcons]
    refine ⟨rfl, ?_, ?_⟩
    · refine hr.leaves (List.nodup_singleton t) ?_ .evicted ?_ rfl rfl
      · simp [hcons]
      · exact hrest.symm
    · simp only [List.head?_cons, Option.map_some, Option.toList_some]
      rw [live_append_leaves, hrest]
      have hle := hr.length_le
      rw [hcons, List.length_cons] at hle
      omega

/-- A live topic leaves the map from the middle. -/
theorem leave (hr : Refines ttl bound later c h) {t : String} (ht : t ∈ (live h).map Prod.fst)
    (r : Exit) :
    Refines ttl bound later { c with pending := c.pending.filter fun p => p.1 ≠ t }
      (h ++ Ledger.leaves [t] r) := by
  refine hr.leaves (List.nodup_singleton t) (by simpa using ht) r ?_ rfl rfl
  rw [← hr.entries_eq]
  simp [ReplyCorrelator.entries, List.filter_map, Function.comp_def]

/-- `sweep` removes and returns, oldest first, exactly what is overdue: the deadlines are sorted, so
that the overdue entries stand in front. -/
theorem sweep (hr : Refines ttl bound later c h) (now : Instant) :
    (c.sweep now).1 = ((live h).filter fun p => p.2.2 ≤ now).map Prod.fst ∧
      (c.sweep now).2.entries = (live h).filter fun p => !(p.2.2 ≤ now) := by
  have hsorted : c.pending.Pairwise fun p q => p.2.deadline ≤ q.2.deadline := by
    have hlive := hr.sorted
    rw [← hr.entries_eq, ReplyCorrelator.entries, List.pairwise_map] at hlive
    exact hlive
  obtain ⟨htake, hdrop⟩ := Collections.take_findIdx_of_sorted
    (fun p : String × Pending => p.2.deadline) now hsorted
  rw [← hr.entries_eq]
  constructor
  · rw [ReplyCorrelator.sweep, htake, ReplyCorrelator.entries, List.filter_map, List.map_map]
    rfl
  · rw [ReplyCorrelator.sweep, ReplyCorrelator.entries, ReplyCorrelator.entries, hdrop,
      List.filter_map]
    rfl

/-- `contains` finds exactly what was minted and has not left. -/
theorem contains_iff (hr : Refines ttl bound later c h) (t : String) :
    c.contains t = true ↔ t ∈ (entered h).map Prod.fst ∧ t ∉ left h := by
  rw [c.contains_eq_true_iff, ← hr.live_keys, mem_live_keys]

/-- `take` finds what was minted and has not left, and resolves to the site topic it was minted
for. -/
theorem take_iff (hr : Refines ttl bound later c h) (t site : String) :
    (c.take t).1 = some site ↔
      (∃ deadline, (t, site, deadline) ∈ entered h) ∧ t ∉ left h := by
  have hlive : ∀ {site : String}, (c.take t).1 = some site →
      ∃ deadline, (t, site, deadline) ∈ live h := by
    intro site htake
    obtain ⟨before, p, after, hpend, -, rfl, -⟩ := ReplyCorrelator.take_eq_some htake
    exact ⟨p.deadline, by simp [← hr.entries_eq, ReplyCorrelator.entries, hpend]⟩
  constructor
  · intro htake
    obtain ⟨deadline, hmem⟩ := hlive htake
    exact ⟨⟨deadline, (mem_live.mp hmem).1⟩, (mem_live.mp hmem).2⟩
  · rintro ⟨⟨deadline, hentered⟩, hleft⟩
    have hmem : (t, site, deadline) ∈ live h := mem_live.mpr ⟨hentered, hleft⟩
    cases htake : (c.take t).1 with
    | none =>
      refine absurd ?_ (ReplyCorrelator.take_eq_none htake).1
      rw [← hr.live_keys]
      exact List.mem_map_of_mem hmem
    | some site' =>
      obtain ⟨deadline', hmem'⟩ := hlive htake
      have heq := List.inj_on_of_nodup_map hr.oneShot.nodup_live hmem hmem' rfl
      simp only [Prod.mk.injEq, true_and] at heq
      rw [heq.1]

/-- A rewrite that evicts does so in a full map, and evicts the oldest live topic. -/
theorem evicted_iff (hr : Refines ttl bound later c h) {codec : Codec Bytes ρ}
    {relayed bytes : Bytes} {mint t : String} {now : Instant} {evicted : Option String}
    (hcall : (c.rewriteDownlink codec relayed mint now).1 =
      some (.rewritten bytes t evicted)) (oldest : String) :
    evicted = some oldest ↔
      (live h).length = bound ∧ ((live h).map Prod.fst).head? = some oldest := by
  have hspec := c.rewriteDownlink_spec codec relayed mint now
  generalize c.rewriteDownlink codec relayed mint now = r at hspec hcall
  have hle := hr.length_le
  cases hspec with
  | malformed => cases hcall
  | passthrough => cases hcall
  | panicked => cases hcall
  | rewritten =>
    cases hcall
    rw [hr.evict.1, Reference.victim]
    by_cases hroom : (live h).length < bound
    · simp [hroom, hroom.ne]
    · simp [Nat.le_antisymm hle (Nat.not_lt.mp hroom)]

end Refines

section Call

variable {codec : Codec Bytes ρ} {ttl : Duration} {bound : ℕ} {later : List (MapCall Bytes)}
  {c : ReplyCorrelator} {h : MapHistory}

/-- `rewrite_downlink` answers as the reference does. -/
theorem rewriteDownlink_refines {relayed : Bytes} {mint : String} {now : Instant}
    (hadm : Admissible ttl (.rewriteDownlink relayed mint now :: later))
    (hr : Refines ttl bound (.rewriteDownlink relayed mint now :: later) c h) :
    (c.call codec (.rewriteDownlink relayed mint now)).1 =
        (Reference.call codec ttl bound h (.rewriteDownlink relayed mint now)).1 ∧
      Refines ttl bound later (c.call codec (.rewriteDownlink relayed mint now)).2
        (Reference.call codec ttl bound h (.rewriteDownlink relayed mint now)).2 := by
  have hdl := hadm.noOverflow _ _ _ (List.mem_cons_self ..)
  have htimes := hadm.times
  have hmints := hadm.mints
  simp only [List.filterMap_cons, MapCall.instant, List.pairwise_cons] at htimes
  simp only [List.filterMap_cons, MapCall.mint, List.nodup_cons] at hmints
  have hmint := hr.fresh mint (by simp [MapCall.mint])
  have hlive : ∀ q ∈ live h, q.2.2 ≤ now + ttl :=
    fun q hq => hr.timely q hq now (by simp [MapCall.instant])
  simp only [ReplyCorrelator.call, Reference.call, Reference.request]
  unfold ReplyCorrelator.rewriteDownlink
  cases hdec : codec.fromSlice relayed with
  | none => exact ⟨rfl, hr.tail⟩
  | some msg =>
    cases hreply : msg.header.replyTo with
    | none => simpa [hreply] using hr.tail
    | some site =>
      cases henc : codec.toVec (msg.setReplyTo (some mint)) with
      | none => simpa [hreply, henc] using hr.tail
      | some bytes =>
        obtain ⟨hvictim, hevicted, hroom⟩ := hr.tail.evict
        rw [← hr.ttl_eq] at hdl
        simp only [hreply, henc, hdl, Option.bind_some, Option.map_some, hvictim]
        refine ⟨trivial, ?_⟩
        refine hevicted.enter ⟨site, msg.header.correlationId, now + c.ttl⟩ (by simpa using hmint)
          hroom (by rw [hr.ttl_eq]) ?_ htimes.1 hmints.1
        intro q hq
        rw [live_append_leaves] at hq
        exact hlive q (List.mem_of_mem_filter hq)

/-- The lookup of the reference finds the entry that `take` finds. -/
theorem take_refines {t : String} (hr : Refines ttl bound later c h) :
    (c.call codec (.take t)).1 = (Reference.call codec ttl bound h (.take t)).1 ∧
      Refines ttl bound later (c.call codec (.take t)).2
        (Reference.call codec ttl bound h (.take t)).2 := by
  have hkeys := hr.live_keys
  have hnodup := hr.oneShot.nodup_live
  simp only [ReplyCorrelator.call, Reference.call]
  cases htake : (c.take t).1 with
  | none =>
    obtain ⟨hnot, hsame⟩ := ReplyCorrelator.take_eq_none htake
    have hlookup : (live h).lookup t = none := by
      rw [List.lookup_eq_none_iff]
      intro q hq
      have hne : t ≠ q.1 := fun heq => hnot (heq ▸ hkeys ▸ List.mem_map_of_mem hq)
      simpa using hne
    simpa [hlookup, hsame] using hr
  | some site =>
    obtain ⟨before, p, after, hpend, hbefore, hsite, hrest⟩ := ReplyCorrelator.take_eq_some htake
    have hafter : t ∉ after.map Prod.fst := by
      rw [hkeys, ReplyCorrelator.topics, hpend, List.map_append, List.map_cons] at hnodup
      exact (List.nodup_cons.mp (List.nodup_append.mp hnodup).2.1).1
    have hfilter : c.pending.filter (fun q => q.1 ≠ t) = before ++ after := by
      rw [hpend, List.filter_append, List.filter_cons_of_neg (by simp),
        Collections.filter_key_ne_of_notMem hbefore, Collections.filter_key_ne_of_notMem hafter]
    have hlookup : (live h).lookup t = some (site, p.deadline) := by
      rw [← hr.entries_eq, ReplyCorrelator.entries, hpend, List.map_append, List.lookup_append,
        List.lookup_eq_none_iff.mpr]
      · simp [hsite]
      · intro q hq
        obtain ⟨q', hq', rfl⟩ := List.mem_map.mp hq
        have hq'' : t ≠ q'.1 := fun heq => hbefore (heq ▸ List.mem_map_of_mem hq')
        simpa using hq''
    have hmem : t ∈ (live h).map Prod.fst := by
      rw [hkeys, ReplyCorrelator.topics, hpend]
      simp
    simp only [hlookup, hrest, ← hfilter]
    exact ⟨trivial, hr.leave hmem .taken⟩

/-- One call answers as the reference does and keeps the simulation. -/
theorem call_refines {a : MapCall Bytes} (hadm : Admissible ttl (a :: later))
    (hr : Refines ttl bound (a :: later) c h) :
    (c.call codec a).1 = (Reference.call codec ttl bound h a).1 ∧
      Refines ttl bound later (c.call codec a).2 (Reference.call codec ttl bound h a).2 := by
  have hkeys := hr.live_keys
  cases a with
  | rewriteDownlink relayed mint now => exact rewriteDownlink_refines hadm hr
  | take t => exact take_refines hr.tail
  | contains t =>
    refine ⟨?_, hr.tail⟩
    simp only [ReplyCorrelator.call, Reference.call, MapAnswer.present.injEq]
    rw [Bool.eq_iff_iff, hr.contains_iff, decide_eq_true_iff, mem_live_keys]
  | sweep now =>
    obtain ⟨hoverdue, hkept⟩ := hr.sweep now
    refine ⟨congrArg MapAnswer.removed hoverdue, ?_⟩
    refine hr.tail.leaves ?_ ?_ .swept ?_ rfl rfl
    · exact hr.oneShot.nodup_live.sublist (List.filter_sublist.map Prod.fst)
    · exact fun t ht => (List.filter_sublist.map Prod.fst).subset ht
    · rw [Collections.filter_key_notMem_filter hr.oneShot.nodup_live]
      exact hkept
  | abandon t =>
    refine ⟨rfl, ?_⟩
    by_cases ht : t ∈ (live h).map Prod.fst
    · simp only [Reference.call, if_pos ht]
      exact hr.tail.leave ht .abandoned
    · have hsame : c.abandon t = c := by
        rw [hkeys] at ht
        rw [ReplyCorrelator.abandon, Collections.filter_key_ne_of_notMem ht]
      simpa [ReplyCorrelator.call, Reference.call, hsame, ht] using hr.tail
  | drain =>
    refine ⟨by simp [ReplyCorrelator.call, ReplyCorrelator.drain, Reference.call, hkeys,
      ReplyCorrelator.topics], ?_⟩
    refine hr.tail.leaves hr.oneShot.nodup_live (fun t ht => ht) .drained ?_ rfl rfl
    symm
    rw [ReplyCorrelator.entries, ReplyCorrelator.call, ReplyCorrelator.drain, List.map_nil,
      List.filter_eq_nil_iff]
    intro p hp
    simpa using ⟨p.2.1, p.2.2, hp⟩

end Call

section Run

variable {codec : Codec Bytes ρ} {ttl : Duration} {bound : ℕ}

/-- Fewer calls are still admissible. -/
theorem Admissible.tail {a : MapCall Bytes} {calls : List (MapCall Bytes)}
    (hadm : Admissible ttl (a :: calls)) : Admissible ttl calls where
  times := hadm.times.sublist ((List.sublist_cons_self a calls).filterMap _)
  mints := hadm.mints.sublist ((List.sublist_cons_self a calls).filterMap _)
  noOverflow _ _ _ hmem := hadm.noOverflow _ _ _ (List.mem_cons_of_mem _ hmem)

/-- A sequence of calls is answered as the reference answers it, and the correlator then holds what
the history leaves live. -/
theorem run_refines {calls : List (MapCall Bytes)} {c : ReplyCorrelator} {h : MapHistory}
    (hadm : Admissible ttl calls) (hr : Refines ttl bound calls c h) :
    (c.run codec calls).1 = (Reference.run codec ttl bound h calls).1 ∧
      Refines ttl bound ([] : List (MapCall Bytes)) (c.run codec calls).2
        (Reference.run codec ttl bound h calls).2 := by
  induction calls generalizing c h with
  | nil => exact ⟨rfl, hr⟩
  | cons a calls ih =>
    obtain ⟨hanswer, hnext⟩ := call_refines hadm hr
    obtain ⟨hanswers, hlast⟩ := ih hadm.tail hnext
    simp only [ReplyCorrelator.run, Reference.run]
    exact ⟨congrArg₂ List.cons hanswer hanswers, hlast⟩

/-- What one call enters into the history. -/
theorem Reference.mem_entered_call {h : MapHistory} {a : MapCall Bytes} {t site : String}
    {deadline : Instant} :
    (t, site, deadline) ∈ entered (Reference.call codec ttl bound h a).2 ↔
      (t, site, deadline) ∈ entered h ∨ ∃ relayed now bytes, a = .rewriteDownlink relayed t now ∧
        request codec relayed t = some (site, bytes) ∧ deadline = now + ttl := by
  cases a with
  | rewriteDownlink relayed mint now =>
    cases hreq : request codec relayed mint with
    | none =>
      have hsame :
          (Reference.call codec ttl bound h (.rewriteDownlink relayed mint now)).2 = h := by
        simp only [Reference.call, hreq]
        split <;> rfl
      rw [hsame]
      refine ⟨Or.inl, fun hor => hor.resolve_right ?_⟩
      rintro ⟨_, _, _, heq, hsome, -⟩
      cases heq
      rw [hreq] at hsome
      cases hsome
    | some r =>
      obtain ⟨site', bytes⟩ := r
      simp only [Reference.call, hreq, entered_append, entered_leaves, entered_enter,
        List.append_nil, List.mem_append, List.mem_singleton, Prod.mk.injEq]
      refine or_congr Iff.rfl ⟨?_, ?_⟩
      · rintro ⟨rfl, rfl, rfl⟩
        exact ⟨relayed, now, bytes, rfl, hreq, rfl⟩
      · rintro ⟨_, _, bytes', heq, hsome, rfl⟩
        cases heq
        rw [hreq] at hsome
        cases hsome
        exact ⟨rfl, rfl, rfl⟩
  | take t' => cases hl : (live h).lookup t' <;> simp [Reference.call, hl]
  | contains t' => simp [Reference.call]
  | sweep now => simp [Reference.call]
  | abandon t' => by_cases ht : t' ∈ (live h).map Prod.fst <;> simp [Reference.call, ht]
  | drain => simp [Reference.call]

/-- What has entered is what the commands of the sequence asked for. -/
theorem Reference.mem_entered_run {calls : List (MapCall Bytes)} {h : MapHistory} {t site : String}
    {deadline : Instant} :
    (t, site, deadline) ∈ entered (Reference.run codec ttl bound h calls).2 ↔
      (t, site, deadline) ∈ entered h ∨ ∃ relayed now bytes,
        .rewriteDownlink relayed t now ∈ calls ∧ request codec relayed t = some (site, bytes) ∧
          deadline = now + ttl := by
  induction calls generalizing h with
  | nil => simp [Reference.run]
  | cons a calls ih =>
    simp only [Reference.run, ih, mem_entered_call, List.mem_cons, or_and_right, exists_or,
      or_assoc, eq_comm (a := a)]

end Run

/-- The correlation map is a correct bounded, expiring, one-shot map.  After every admissible
sequence of calls it has answered as the reference does and holds what the history leaves live, in
mint order.  What has entered are the minted topics, with the `reply_to` of their command and their
mint time plus the ttl, each of them once, and each leaves at most once and for one reason.  The
size is bounded; `contains` and `take` succeed on what has entered and not left; `sweep` removes and
returns exactly the overdue entries, oldest first; an eviction happens in a full map only and
removes the oldest live topic; and a rewrite that passes through or drops changes nothing. -/
theorem correlator_refines_reference (codec : Codec Bytes ρ) (ttl : Duration) (maxPending : ℕ)
    (calls : List (MapCall Bytes)) (hadm : Admissible ttl calls) :
    let c := (ReplyCorrelator.new ttl maxPending).run codec calls
    let r := Reference.run codec ttl (max 1 maxPending) [] calls
    (c.1 = r.1 ∧ c.2.entries = live r.2) ∧
    (∀ t site deadline, (t, site, deadline) ∈ entered r.2 ↔
      ∃ relayed now bytes, .rewriteDownlink relayed t now ∈ calls ∧
        Reference.request codec relayed t = some (site, bytes) ∧ deadline = now + ttl) ∧
    ((entered r.2).map Prod.fst).Nodup ∧
    (((departed r.2).map Prod.fst).Nodup ∧
      ∀ t ∈ left r.2, t ∈ (entered r.2).map Prod.fst) ∧
    c.2.pending.length ≤ max 1 maxPending ∧
    (∀ t, c.2.contains t = true ↔ t ∈ (entered r.2).map Prod.fst ∧ t ∉ left r.2) ∧
    (∀ t site, (c.2.take t).1 = some site ↔
      (∃ deadline, (t, site, deadline) ∈ entered r.2) ∧ t ∉ left r.2) ∧
    (∀ now, (c.2.sweep now).1 = ((live r.2).filter fun p => p.2.2 ≤ now).map Prod.fst ∧
      (c.2.sweep now).2.entries = (live r.2).filter fun p => !(p.2.2 ≤ now)) ∧
    (∀ relayed mint now bytes t evicted oldest,
      (c.2.rewriteDownlink codec relayed mint now).1 = some (.rewritten bytes t evicted) →
        (evicted = some oldest ↔ (live r.2).length = max 1 maxPending ∧
          ((live r.2).map Prod.fst).head? = some oldest)) ∧
    (∀ relayed mint now, ((c.2.rewriteDownlink codec relayed mint now).1 = some .passthrough ∨
        ∃ reason, (c.2.rewriteDownlink codec relayed mint now).1 = some (.drop reason)) →
      (c.2.rewriteDownlink codec relayed mint now).2 = c.2) := by
  intro c r
  obtain ⟨hanswers, hr⟩ := run_refines hadm (.new ttl maxPending calls)
  refine ⟨⟨hanswers, hr.entries_eq⟩, ?_, hr.oneShot.nodup_entered,
    ⟨hr.oneShot.nodup_left, hr.oneShot.entered_of_left⟩, hr.length_eq.trans_le hr.length_le,
    hr.contains_iff, hr.take_iff, hr.sweep, ?_, ?_⟩
  · intro t site deadline
    have hmem : (t, site, deadline) ∈ entered r.2 ↔ _ := Reference.mem_entered_run
    simpa using hmem
  · exact fun relayed mint now bytes t evicted oldest hcall => hr.evicted_iff hcall oldest
  · intro relayed mint now hquiet
    have hspec := c.2.rewriteDownlink_spec codec relayed mint now
    generalize c.2.rewriteDownlink codec relayed mint now = out at hspec hquiet
    cases hspec with
    | malformed => rfl
    | passthrough => rfl
    | panicked => rcases hquiet with hquiet | ⟨reason, hquiet⟩ <;> cases hquiet
    | rewritten => rcases hquiet with hquiet | ⟨reason, hquiet⟩ <;> cases hquiet

/-- Two commands with a reply path, the second of which evicts the first from a map of size one, and
the reply to the second. -/
def sampleCalls : List (MapCall (Message Unit)) :=
  [.rewriteDownlink (.sample (some "site/a")) "edgecommons/reply-1" 0,
    .rewriteDownlink (.sample (some "site/b")) "edgecommons/reply-2" 5,
    .sweep 7, .take "edgecommons/reply-2", .drain]

/-- The sample calls are admissible for the default ttl. -/
theorem sampleCalls_admissible : Admissible (ReplyConfig.ttl {}) sampleCalls where
  times := by decide
  mints := by decide
  noOverflow relayed mint now hmem := by
    simp only [sampleCalls, List.mem_cons, List.not_mem_nil, or_false, reduceCtorEq, or_false,
      MapCall.rewriteDownlink.injEq] at hmem
    rcases hmem with ⟨-, -, rfl⟩ | ⟨-, -, rfl⟩ <;> decide

/-- The map after the sample calls holds what their history leaves live. -/
theorem correlator_refines_reference_sample :
    ((ReplyCorrelator.new (ReplyConfig.ttl {}) 1).run (Codec.plain Unit) sampleCalls).2.entries =
      live (Reference.run (Codec.plain Unit) (ReplyConfig.ttl {}) (max 1 1) [] sampleCalls).2 :=
  (correlator_refines_reference (Codec.plain Unit) _ 1 sampleCalls sampleCalls_admissible).1.2

end UnsBridge
