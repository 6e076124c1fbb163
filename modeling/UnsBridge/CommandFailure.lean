import UnsBridge.Io.DownlinkMoves
import UnsBridge.Lib.Collections

/-!
# Commands that are not relayed

One command on its way through a downlink pump, with no other task acting in between: the pump
receives it, decides on it, runs it through the reply proxy and publishes it on the device bus.
`processCommand` takes the steps of the downlink system one after the other; how the calls end that
the pump makes on the way is given by `CallOutcomes`.

`replies_unchanged_iff` says when a command that ends without a publish leaves the correlation map
and the reply subscriptions as they were.  The proxy takes an entry back when the subscribe of its
topic fails; it neither restores the entry that was evicted for it, nor takes anything back when the
publish fails.
-/

namespace UnsBridge

open Transition

variable {Bytes ρ : Type}

/-- What the calls return that a pump makes for one command. -/
structure CallOutcomes where
  /-- The topic that `new_reply_topic` mints. -/
  mint : String
  /-- `Instant::now`, when the command is recorded. -/
  now : Instant
  /-- The unsubscribe of the evicted topic. -/
  expired : SubOutcome
  /-- The subscribe of the minted topic. -/
  subscribed : SubOutcome
  /-- The unsubscribe of the minted topic. -/
  dropped : SubOutcome
  /-- The publish on the device bus. -/
  published : Outcome

/-- The next step of a pump, none where it awaits a command or has panicked. -/
def CallOutcomes.next (o : CallOutcomes) (i : ℕ) :
    DownlinkPhase Bytes → Option (DownlinkAction Bytes)
  | .idle | .dead => none
  | .forwarded _ => some (.rewriteDownlink i o.mint o.now)
  | .expiring _ _ _ => some (.expired i o.expired)
  | .subscribing _ _ => some (.subscribed i o.subscribed)
  | .checking _ _ _ => some (.check i)
  | .dropping _ _ => some (.dropped i o.dropped)
  | .publishing _ => some (.published i o.published)

namespace Downlink

variable [Inhabited ρ] (S : Setup Bytes ρ) (o : CallOutcomes) (i : ℕ)

/-- Up to `n` steps of pump `i`, with the counters they bump. -/
def proceed : ℕ → Downlink Bytes → Downlink Bytes × List Bump
  | 0, s => (s, [])
  | n + 1, s =>
    match (o.next i (s.pumps i)).bind (s.step S) with
    | none => (s, [])
    | some (s', bumps) => ((proceed n s').1, bumps ++ (proceed n s').2)

/-- Pump `i` processes the next command of its queue: it receives the command and takes all the
steps that it has for it, six at most. -/
def processCommand (s : Downlink Bytes) : Option (Downlink Bytes × List Bump) :=
  (s.recv S i).map fun (s', bumps) =>
    ((s'.proceed S o i 6).1, bumps ++ (s'.proceed S o i 6).2)

variable {S o i} {s s' : Downlink Bytes} {bumps : List Bump} {n : ℕ}

/-- A pump that has no step left stops. -/
theorem proceed_of_next (h : o.next i (s.pumps i) = none) : s.proceed S o i n = (s, []) := by
  cases n with
  | zero => rfl
  | succ n => simp [proceed, h]

/-- A pump goes on after its next step. -/
theorem proceed_succ {a : DownlinkAction Bytes} (ha : o.next i (s.pumps i) = some a)
    (hs : s.step S a = some (s', bumps)) :
    s.proceed S o i (n + 1) = ((s'.proceed S o i n).1, bumps ++ (s'.proceed S o i n).2) := by
  rw [proceed, ha]
  simp [hs]

/-- How many steps a pump has left for its command at most. -/
def stepsLeft : DownlinkPhase Bytes → ℕ
  | .idle | .dead => 0
  | .publishing _ => 1
  | .dropping _ _ => 2
  | .checking _ _ _ => 3
  | .subscribing _ _ => 4
  | .expiring _ _ _ => 5
  | .forwarded _ => 6

/-- The next step of a pump is enabled, and leaves fewer steps. -/
theorem exists_step {a : DownlinkAction Bytes} (ha : o.next i (s.pumps i) = some a) :
    ∃ s' bumps, s.step S a = some (s', bumps) ∧ stepsLeft (s'.pumps i) < stepsLeft (s.pumps i) := by
  cases hpump : s.pumps i with
  | idle => simp [hpump, CallOutcomes.next] at ha
  | dead => simp [hpump, CallOutcomes.next] at ha
  | forwarded m =>
    rw [hpump] at ha
    cases ha
    simp only [step, rewriteDownlink, hpump]
    cases s.correlator.rewriteDownlink S.codec m.bytes o.mint o.now with
    | mk action correlator =>
      cases action with
      | none => exact ⟨_, _, rfl, by simp [setPump, stepsLeft]⟩
      | some action =>
        cases action with
        | passthrough => exact ⟨_, _, rfl, by simp [publishCommand, setPump, record, stepsLeft]⟩
        | drop reason => exact ⟨_, _, rfl, by simp [setPump, stepsLeft]⟩
        | rewritten bytes t evicted =>
          cases evicted <;> exact ⟨_, _, rfl, by simp [setPump, record, stepsLeft]⟩
  | expiring oldest m t =>
    rw [hpump] at ha
    cases ha
    simp only [step, expired, hpump]
    exact ⟨_, _, rfl, by simp [setPump, stepsLeft]⟩
  | subscribing m t =>
    rw [hpump] at ha
    cases ha
    simp only [step, subscribed, hpump]
    cases o.subscribed <;> exact ⟨_, _, rfl, by simp [setPump, record, stepsLeft]⟩
  | checking m t k =>
    rw [hpump] at ha
    cases ha
    simp only [step, check, hpump]
    split
    · exact ⟨_, _, rfl, by simp [publishCommand, setPump, record, stepsLeft]⟩
    · exact ⟨_, _, rfl, by simp [setPump, stepsLeft]⟩
  | dropping m t =>
    rw [hpump] at ha
    cases ha
    simp only [step, dropped, hpump]
    exact ⟨_, _, rfl, by simp [publishCommand, setPump, record, stepsLeft]⟩
  | publishing m =>
    rw [hpump] at ha
    cases ha
    simp only [step, published, hpump]
    cases o.published <;> exact ⟨_, _, rfl, by simp [setPump, stepsLeft]⟩

/-- Six steps are enough: the pump awaits its next command then, or has panicked. -/
theorem next_proceed (h : stepsLeft (s.pumps i) ≤ n) :
    o.next i ((s.proceed S o i n).1.pumps i) = none := by
  induction n generalizing s with
  | zero =>
    cases hpump : s.pumps i <;> simp [hpump, stepsLeft] at h <;>
      simp [proceed, hpump, CallOutcomes.next]
  | succ n ih =>
    cases hnext : o.next i (s.pumps i) with
    | none => rw [proceed_of_next hnext, hnext]
    | some a =>
      obtain ⟨s', bumps, hs, hrank⟩ := exists_step (S := S) hnext
      rw [proceed_succ hnext hs]
      exact ih (by omega)

/-- The counter of a publish on the device bus. -/
def publishBump (outcome : Outcome) : Bump :=
  match outcome with
  | .ok => .downlinked
  | .failed => .publishFailed

/-- The command counts as relayed if the publish succeeds. -/
theorem downlinked_mem_publishBump {outcome : Outcome} :
    .downlinked ∈ [publishBump outcome] ↔ outcome = .ok := by
  cases outcome <;> simp [publishBump]

/-- From its publish on, a pump changes nothing but its own phase. -/
theorem proceed_publishing {m : Command Bytes} (h : s.pumps i = .publishing m) :
    s.proceed S o i (n + 1) = (s.setPump i .idle, [publishBump o.published]) := by
  have hs : s.step S (.published i o.published) =
      some (s.setPump i .idle, [publishBump o.published]) := by
    simp only [step, published, h]
    cases o.published <;> rfl
  rw [proceed_succ (by rw [h]; rfl) hs, proceed_of_next (by simp [setPump, CallOutcomes.next])]
  rfl

/-- What the processing leaves behind: the map and the reply subscriptions, and whether the command
counts as relayed. -/
structure Leaves (r : Downlink Bytes × List Bump) (correlator : ReplyCorrelator)
    (subscriptions : List (ℕ × String)) (relayed : Prop) : Prop where
  correlator : r.1.correlator = correlator
  subscriptions : r.1.subscriptions = subscriptions
  relayed : .downlinked ∈ r.2 ↔ relayed

/-- A command whose topic has been subscribed and whose entry lives is published, and the reply
state stays as it is. -/
theorem leaves_checking {m : Command Bytes} {t : String} {k : ℕ} (h : s.pumps i = .checking m t k)
    (hlive : t ∈ s.correlator.topics) : Leaves (s.proceed S o i (n + 2)) s.correlator
      s.subscriptions (o.published = .ok) := by
  have hs : s.step S (.check i) = some ({ s.setReplyPump s.nextReplyPump (.waiting t k) with
      nextReplyPump := s.nextReplyPump + 1 }.publishCommand i m, []) := by
    simp only [step, check, h, (s.correlator.contains_eq_true_iff t).mpr hlive, if_true]
    rfl
  rw [proceed_succ (by rw [h]; rfl) hs,
    proceed_publishing (m := m) (by simp [publishCommand, setPump, record])]
  exact ⟨rfl, rfl, downlinked_mem_publishBump⟩

/-- What is left where the topic of an entry is subscribed: the subscription, or neither the entry
nor, unless the failed subscribe had an effect, the subscription. -/
def LeavesSubscribing (o : CallOutcomes) (r : Downlink Bytes × List Bump)
    (correlator : ReplyCorrelator) (subscriptions : List (ℕ × String)) (k : ℕ) (t : String) :
    Prop :=
  match o.subscribed with
  | .ok => Leaves r correlator (subscriptions ++ [(k, t)]) (o.published = .ok)
  | .failed effect => Leaves r (correlator.abandon t)
      (if effect then subscriptions ++ [(k, t)] else subscriptions) False

/-- A step before the subscribe changes nothing of that, as long as it does not relay the command.
-/
theorem LeavesSubscribing.after {r : Downlink Bytes × List Bump} {correlator : ReplyCorrelator}
    {subscriptions : List (ℕ × String)} {k : ℕ} {t : String}
    (h : LeavesSubscribing o r correlator subscriptions k t) (hbumps : .downlinked ∉ bumps) :
    LeavesSubscribing o (r.1, bumps ++ r.2) correlator subscriptions k t := by
  unfold LeavesSubscribing at h ⊢
  cases hsub : o.subscribed with
  | ok =>
    rw [hsub] at h
    exact ⟨h.correlator, h.subscriptions, by simpa [hbumps] using h.relayed⟩
  | failed effect =>
    rw [hsub] at h
    exact ⟨h.correlator, h.subscriptions, by simpa [hbumps] using h.relayed⟩

/-- A command whose topic is being subscribed. -/
theorem leaves_subscribing {m : Command Bytes} {t : String} (h : s.pumps i = .subscribing m t)
    (hlive : t ∈ s.correlator.topics) :
    LeavesSubscribing o (s.proceed S o i (n + 3)) s.correlator s.subscriptions
      s.nextSubscription t := by
  unfold LeavesSubscribing
  cases hsub : o.subscribed with
  | ok =>
    have hs : s.step S (.subscribed i .ok) = some (({ s with
        nextSubscription := s.nextSubscription + 1
        subscriptions := s.subscriptions ++ [(s.nextSubscription, t)] }.setPump i
          (.checking m t s.nextSubscription)).record (.subscribed t), []) := by
      simp [step, subscribed, h, SubOutcome.effect]
    rw [proceed_succ (by rw [h, ← hsub]; rfl) hs]
    exact leaves_checking (m := m) (t := t) (k := s.nextSubscription)
      (by simp [setPump, record]) hlive
  | failed effect =>
    have hs : ∃ s', s.step S (.subscribed i (.failed effect)) = some (s', [.publishFailed]) ∧
        s'.pumps i = .idle ∧ s'.correlator = s.correlator.abandon t ∧ s'.subscriptions =
          if effect then s.subscriptions ++ [(s.nextSubscription, t)] else s.subscriptions := by
      refine ⟨_, by simp only [step, subscribed, h]; rfl, ?_, rfl, rfl⟩
      simp [setPump]
    obtain ⟨s', hs, hidle, hcorrelator, hsubscriptions⟩ := hs
    rw [proceed_succ (by rw [h, ← hsub]; rfl) hs, proceed_of_next (by rw [hidle]; rfl)]
    exact ⟨hcorrelator, hsubscriptions, by simp⟩

/-- The command asks for a reply path that the proxy can make: it has a `reply_to`, and can be
encoded with the minted topic in its place. -/
def AsksForReply (S : Setup Bytes ρ) (mint : String) (bytes : Bytes) : Prop :=
  ∃ msg site, S.codec.fromSlice bytes = some msg ∧ msg.header.replyTo = some site ∧
    (S.codec.toVec (msg.setReplyTo (some mint))).isSome = true

omit [Inhabited ρ] in
/-- The locked section for a command that asks for a reply path: an eviction, and an insertion
unless the deadline overflows. -/
theorem rewriteDownlink_of_asks (c : ReplyCorrelator) (now : Instant) {mint : String}
    {bytes : Bytes} (h : AsksForReply S mint bytes) :
    (Instant.checkedAdd now c.ttl = none ∧ c.rewriteDownlink S.codec bytes mint now =
        (none, { c with pending := c.evictOldest.2 })) ∨
      ∃ out entry, Instant.checkedAdd now c.ttl ≠ none ∧
        c.rewriteDownlink S.codec bytes mint now = (some (.rewritten out mint c.evictOldest.1),
          { c with pending := c.evictOldest.2 ++ [(mint, entry)] }) := by
  obtain ⟨msg, site, hdec, hreply, henc⟩ := h
  obtain ⟨out, henc⟩ := Option.isSome_iff_exists.mp henc
  rw [c.rewriteDownlink_of_request now hdec hreply henc]
  cases Instant.checkedAdd now c.ttl with
  | none => exact Or.inl ⟨rfl, rfl⟩
  | some deadline => exact Or.inr ⟨out, _, by simp, rfl⟩

omit [Inhabited ρ] in
/-- The locked section leaves the map alone for a command without a reply path, which is dropped or
passed through. -/
theorem rewriteDownlink_of_not_asks (c : ReplyCorrelator) (now : Instant) {mint : String}
    {bytes : Bytes} (h : ¬ AsksForReply S mint bytes) :
    c.rewriteDownlink S.codec bytes mint now = (some (.drop .malformedEnvelope), c) ∨
      c.rewriteDownlink S.codec bytes mint now = (some .passthrough, c) := by
  refine c.rewriteDownlink_of_no_request now fun msg site hdec hreply => ?_
  by_contra hne
  exact h ⟨msg, site, hdec, hreply, Option.isSome_iff_ne_none.mpr hne⟩

/-- A command without a reply path leaves the reply state alone. -/
theorem leaves_of_not_asks {m : Command Bytes} (h : s.pumps i = .forwarded m)
    (hasks : ¬ AsksForReply S o.mint m.bytes) :
    (s.proceed S o i (n + 2)).1.correlator = s.correlator ∧
      (s.proceed S o i (n + 2)).1.subscriptions = s.subscriptions := by
  have hnext : o.next i (s.pumps i) = some (.rewriteDownlink i o.mint o.now) := by rw [h]; rfl
  rcases rewriteDownlink_of_not_asks s.correlator o.now hasks with hr | hr
  · have hs : s.step S (.rewriteDownlink i o.mint o.now) =
        some (s.setPump i .idle, [.drop .malformedEnvelope]) := by
      simp only [step, rewriteDownlink, h, hr]
    rw [proceed_succ hnext hs, proceed_of_next (by simp [setPump, CallOutcomes.next])]
    exact ⟨rfl, rfl⟩
  · have hs : s.step S (.rewriteDownlink i o.mint o.now) = some (s.publishCommand i m, []) := by
      simp only [step, rewriteDownlink, h, hr]
    rw [proceed_succ hnext hs,
      proceed_publishing (m := m) (by simp [publishCommand, setPump, record])]
    exact ⟨rfl, rfl⟩

/-- A command whose deadline overflows leaves the map without the entry that was evicted. -/
theorem leaves_of_overflow {m : Command Bytes} (h : s.pumps i = .forwarded m)
    (hr : s.correlator.rewriteDownlink S.codec m.bytes o.mint o.now =
      (none, { s.correlator with pending := s.correlator.evictOldest.2 })) :
    Leaves (s.proceed S o i (n + 1)) { s.correlator with pending := s.correlator.evictOldest.2 }
      s.subscriptions False := by
  have hs : s.step S (.rewriteDownlink i o.mint o.now) =
      some ((s.setPending s.correlator.evictOldest.2).setPump i .dead, []) := by
    simp only [step, rewriteDownlink, h, hr]
    rfl
  rw [proceed_succ (by rw [h]; rfl) hs, proceed_of_next (by simp [setPump, CallOutcomes.next])]
  exact ⟨rfl, rfl, by simp⟩

/-- The subscribed topics when the minted topic is subscribed: the evicted one may have been
unsubscribed. -/
def subscriptionsAfterEviction (s : Downlink Bytes) (outcome : SubOutcome) : List (ℕ × String) :=
  match s.correlator.evictOldest.1 with
  | none => s.subscriptions
  | some oldest => (s.unsubscribe oldest outcome).subscriptions

/-- A command is recorded, and its topic subscribed when the evicted one has been unsubscribed. -/
theorem leaves_of_recorded {m : Command Bytes} (h : s.pumps i = .forwarded m) {out : Bytes}
    {entry : Pending} (hr : s.correlator.rewriteDownlink S.codec m.bytes o.mint o.now =
      (some (.rewritten out o.mint s.correlator.evictOldest.1),
        { s.correlator with pending := s.correlator.evictOldest.2 ++ [(o.mint, entry)] })) :
    LeavesSubscribing o (s.proceed S o i 6)
      { s.correlator with pending := s.correlator.evictOldest.2 ++ [(o.mint, entry)] }
      (s.subscriptionsAfterEviction o.expired) s.nextSubscription o.mint := by
  have hnext : o.next i (s.pumps i) = some (.rewriteDownlink i o.mint o.now) := by rw [h]; rfl
  have hmint : o.mint ∈ (s.correlator.evictOldest.2 ++ [(o.mint, entry)]).map Prod.fst := by simp
  let s₁ := (s.setPending (s.correlator.evictOldest.2 ++ [(o.mint, entry)])).record
    (.recorded m.copy o.mint)
  let m' : Command Bytes := { m with bytes := out }
  cases hevicted : s.correlator.evictOldest.1 with
  | none =>
    let s₂ := s₁.setPump i (.subscribing m' o.mint)
    have hs : s.step S (.rewriteDownlink i o.mint o.now) = some (s₂, []) := by
      simp only [step, rewriteDownlink, h, hr, hevicted]
      rfl
    have hsubscriptions : s.subscriptionsAfterEviction o.expired = s₂.subscriptions := by
      rw [subscriptionsAfterEviction, hevicted]
      rfl
    have hleaves := leaves_subscribing (S := S) (o := o) (n := 2) (m := m')
      (show s₂.pumps i = .subscribing m' o.mint by simp [s₂, setPump]) hmint
    rw [proceed_succ hnext hs, hsubscriptions]
    exact hleaves.after (by simp)
  | some oldest =>
    let s₂ := s₁.setPump i (.expiring oldest m' o.mint)
    let s₃ := (s₂.unsubscribe oldest o.expired).setPump i (.subscribing m' o.mint)
    have hs : s.step S (.rewriteDownlink i o.mint o.now) = some (s₂, [.replyExpired]) := by
      simp only [step, rewriteDownlink, h, hr, hevicted]
      rfl
    have hphase : s₂.pumps i = .expiring oldest m' o.mint := by simp [s₂, setPump]
    have hs₂ : s₂.step S (.expired i o.expired) = some (s₃, []) := by
      simp only [step, expired, hphase]
      rfl
    have hsubscriptions : s.subscriptionsAfterEviction o.expired = s₃.subscriptions := by
      rw [subscriptionsAfterEviction, hevicted]
      rfl
    have hleaves := leaves_subscribing (S := S) (o := o) (n := 1) (m := m')
      (show s₃.pumps i = .subscribing m' o.mint by simp [s₃, setPump]) hmint
    rw [proceed_succ hnext hs, proceed_succ (by rw [hphase]; rfl) hs₂, hsubscriptions]
    exact (hleaves.after (by simp)).after (by simp)

/-! ### When the reply state is as it was -/

/-- The reply state is the same: the map, and the set of the subscribed reply topics. -/
structure SameReplies (s s' : Downlink Bytes) : Prop where
  correlator : s'.correlator = s.correlator
  subscribed : ∀ t, t ∈ s'.subscriptions.map Prod.snd ↔ t ∈ s.subscriptions.map Prod.snd

/-- A topic that is neither in the map nor subscribed. -/
structure IsNew (s : Downlink Bytes) (t : String) : Prop where
  notMem : t ∉ s.correlator.topics
  notSubscribed : t ∉ s.subscriptions.map Prod.snd

/-- An eviction changes a full map, and no other. -/
theorem evictOldest_eq_iff (c : ReplyCorrelator) :
    { c with pending := c.evictOldest.2 } = c ↔ c.pending.length < c.maxPending := by
  rcases c.evictOldest_cases with ⟨hlt, hev⟩ | ⟨t, p, rest, hfull, hpending, hev⟩
  · simp [hev, hlt]
  · simp only [hev, Nat.not_lt.mpr hfull, iff_false]
    intro heq
    have hlen := congrArg (fun c => c.pending.length) heq
    simp [hpending] at hlen

/-- A new entry that is abandoned leaves the map after the eviction. -/
theorem abandon_recorded {c : ReplyCorrelator} {mint : String} (hmint : mint ∉ c.topics)
    (entry : Pending) :
    ({ c with pending := c.evictOldest.2 ++ [(mint, entry)] } : ReplyCorrelator).abandon mint =
      { c with pending := c.evictOldest.2 } := by
  have hkept : mint ∉ c.evictOldest.2.map Prod.fst := by
    rcases c.evictOldest_cases with ⟨-, hev⟩ | ⟨t, p, rest, -, hpending, hev⟩
    · rw [hev]
      exact hmint
    · rw [ReplyCorrelator.topics, hpending] at hmint
      rw [hev]
      exact fun hmem => hmint (List.mem_cons_of_mem t hmem)
  have hfilter : (c.evictOldest.2 ++ [(mint, entry)]).filter (fun p => p.1 ≠ mint) =
      c.evictOldest.2 := by
    rw [List.filter_append, Collections.filter_key_ne_of_notMem hkept]
    simp
  rw [ReplyCorrelator.abandon, hfilter]

/-- The processing of a forwarded command leaves the reply state as it was exactly if the command
asks for no reply path, or the map has room and either the deadline overflows or the subscribe fails
without an effect. -/
theorem sameReplies_proceed_iff {m : Command Bytes} (h : s.pumps i = .forwarded m)
    (hnew : s.IsNew o.mint) : s.SameReplies (s.proceed S o i 6).1 ↔
      (AsksForReply S o.mint m.bytes → s.correlator.pending.length < s.correlator.maxPending ∧
        (Instant.checkedAdd o.now s.correlator.ttl = none ∨ o.subscribed = .failed false)) := by
  by_cases hasks : AsksForReply S o.mint m.bytes
  · rcases rewriteDownlink_of_asks s.correlator o.now hasks with
      ⟨hdl, hr⟩ | ⟨out, entry, hdl, hr⟩
    · have hleaves := leaves_of_overflow (n := 5) h hr
      simp only [hasks, hdl, true_or, and_true, true_imp_iff, ← evictOldest_eq_iff]
      constructor
      · exact fun hsame => hleaves.correlator.symm.trans hsame.correlator
      · exact fun heq => ⟨hleaves.correlator.trans heq, fun t => by rw [hleaves.subscriptions]⟩
    · have hleaves := leaves_of_recorded h hr
      unfold LeavesSubscribing at hleaves
      simp only [hasks, hdl, false_or, true_imp_iff]
      cases hsub : o.subscribed with
      | ok =>
        rw [hsub] at hleaves
        simp only [reduceCtorEq, and_false, iff_false]
        intro hsame
        have hmint := congrArg ReplyCorrelator.topics
          (hleaves.correlator.symm.trans hsame.correlator)
        exact hnew.notMem (hmint ▸ by simp [ReplyCorrelator.topics])
      | failed effect =>
        rw [hsub] at hleaves
        have hcorrelator := hleaves.correlator.trans (abandon_recorded hnew.notMem entry)
        rw [← evictOldest_eq_iff]
        constructor
        · intro hsame
          refine ⟨hcorrelator.symm.trans hsame.correlator, ?_⟩
          cases effect with
          | false => rfl
          | true =>
            have hmint : o.mint ∈ (s.proceed S o i 6).1.subscriptions.map Prod.snd := by
              rw [hleaves.subscriptions]
              simp
            exact absurd ((hsame.subscribed o.mint).mp hmint) hnew.notSubscribed
        · rintro ⟨heq, heffect⟩
          cases heffect
          have hevicted : s.correlator.evictOldest.1 = none := by
            rcases s.correlator.evictOldest_cases with ⟨-, hev⟩ | ⟨t, p, rest, hfull, -⟩
            · rw [hev]
            · exact absurd ((evictOldest_eq_iff _).mp heq) (Nat.not_lt.mpr hfull)
          refine ⟨hcorrelator.trans heq, fun t => ?_⟩
          rw [hleaves.subscriptions, subscriptionsAfterEviction, hevicted]
          rfl
  · obtain ⟨hcorrelator, hsubscriptions⟩ := leaves_of_not_asks (n := 4) (o := o) h hasks
    refine iff_of_true ⟨hcorrelator, fun t => ?_⟩ (absurd · hasks)
    rw [hsubscriptions]

/-- A command that asks for a reply path is relayed exactly if its deadline is in range, its topic
is subscribed and its publish succeeds. -/
theorem downlinked_mem_proceed_iff {m : Command Bytes} (h : s.pumps i = .forwarded m)
    (hasks : AsksForReply S o.mint m.bytes) : .downlinked ∈ (s.proceed S o i 6).2 ↔
      Instant.checkedAdd o.now s.correlator.ttl ≠ none ∧ o.subscribed = .ok ∧
        o.published = .ok := by
  rcases rewriteDownlink_of_asks s.correlator o.now hasks with ⟨hdl, hr⟩ | ⟨out, entry, hdl, hr⟩
  · simpa [hdl] using (leaves_of_overflow (n := 5) h hr).relayed
  · have hleaves := leaves_of_recorded h hr
    unfold LeavesSubscribing at hleaves
    cases hsub : o.subscribed with
    | ok =>
      rw [hsub] at hleaves
      simpa [hdl] using hleaves.relayed
    | failed effect =>
      rw [hsub] at hleaves
      simpa using hleaves.relayed

/-- What a pump does with the command that it receives. -/
theorem recv_eq_some (h : s.recv S i = some (s', bumps)) :
    ∃ c bus, s.bus.recv i = some (c, bus) ∧ s.pumps i = .idle ∧
      match S.engine.decide S.codec .downlink c.topic c.payload with
      | .forward bytes =>
        s' = { s with bus }.setPump i (.forwarded { copy := c, bytes }) ∧ bumps = []
      | .drop _ => s' = { s with bus } := by
  unfold recv at h
  cases hpump : s.pumps i with
  | idle =>
    cases hbus : s.bus.recv i with
    | none => simp [hpump, hbus] at h
    | some p =>
      obtain ⟨c, bus⟩ := p
      refine ⟨c, bus, rfl, rfl, ?_⟩
      cases hdecide : S.engine.decide S.codec .downlink c.topic c.payload with
      | forward bytes =>
        simp only [hpump, hbus, hdecide, Option.some.injEq, Prod.mk.injEq] at h
        exact ⟨h.1.symm, h.2.symm⟩
      | drop reason =>
        simp only [hpump, hbus, hdecide, Option.some.injEq, Prod.mk.injEq] at h
        exact h.1.symm
  | _ => simp [hpump] at h

/-- What a pump does with a command, once it has decided on it. -/
theorem processCommand_eq_some (h : s.processCommand S o i = some (s', bumps)) :
    ∃ c bus, s.bus.recv i = some (c, bus) ∧
      match S.engine.decide S.codec .downlink c.topic c.payload with
      | .forward bytes => ∃ t : Downlink Bytes, t.pumps i = .forwarded { copy := c, bytes } ∧
        t.correlator = s.correlator ∧ t.subscriptions = s.subscriptions ∧
          (s', bumps) = t.proceed S o i 6
      | .drop _ => s.SameReplies s' := by
  obtain ⟨⟨t, b⟩, hrecv, heq⟩ := Option.map_eq_some_iff.mp h
  obtain ⟨c, bus, hbus, hidle, ht⟩ := recv_eq_some hrecv
  refine ⟨c, bus, hbus, ?_⟩
  cases hdecide : S.engine.decide S.codec .downlink c.topic c.payload with
  | forward bytes =>
    rw [hdecide] at ht
    obtain ⟨rfl, rfl⟩ := ht
    exact ⟨{ s with bus }.setPump i (.forwarded { copy := c, bytes }), by simp [setPump], rfl, rfl,
      heq.symm⟩
  | drop reason =>
    rw [hdecide] at ht
    have hstop : t.proceed S o i 6 = (t, []) :=
      proceed_of_next (by simp [ht, hidle, CallOutcomes.next])
    simp only [hstop, Prod.mk.injEq] at heq
    obtain rfl : t = s' := heq.1
    rw [ht]
    exact ⟨rfl, fun _ => Iff.rfl⟩

/-- The processing of a command, whether it ends with a publish or without one, leaves the map and
the set of subscribed reply topics as they were exactly if the command is not forwarded or asks for
no reply path, or the map is below its bound and either the deadline overflows or the subscribe of
the minted topic fails without an effect. -/
theorem sameReplies_processCommand_iff (hnew : s.IsNew o.mint)
    (h : s.processCommand S o i = some (s', bumps)) :
    s.SameReplies s' ↔ ∀ c bus bytes, s.bus.recv i = some (c, bus) →
      S.engine.decide S.codec .downlink c.topic c.payload = .forward bytes →
      AsksForReply S o.mint bytes → s.correlator.pending.length < s.correlator.maxPending ∧
        (Instant.checkedAdd o.now s.correlator.ttl = none ∨ o.subscribed = .failed false) := by
  obtain ⟨c, bus, hbus, hafter⟩ := processCommand_eq_some h
  have hcopy : ∀ c' bus', s.bus.recv i = some (c', bus') → c' = c := by
    intro c' bus' hbus'
    cases hbus.symm.trans hbus'
    rfl
  cases hdecide : S.engine.decide S.codec .downlink c.topic c.payload with
  | drop reason =>
    rw [hdecide] at hafter
    refine iff_of_true hafter fun c' bus' bytes hbus' hforward => ?_
    obtain rfl := hcopy c' bus' hbus'
    cases hdecide.symm.trans hforward
  | forward bytes =>
    rw [hdecide] at hafter
    obtain ⟨t, hphase, hcorrelator, hsubscriptions, hend⟩ := hafter
    have hiff := sameReplies_proceed_iff (S := S) (o := o) hphase
      ⟨hcorrelator ▸ hnew.notMem, hsubscriptions ▸ hnew.notSubscribed⟩
    rw [← hend, hcorrelator] at hiff
    have hsame : s.SameReplies s' ↔ t.SameReplies s' := by
      constructor
      · exact fun h => ⟨h.correlator.trans hcorrelator.symm, hsubscriptions ▸ h.subscribed⟩
      · exact fun h => ⟨h.correlator.trans hcorrelator, hsubscriptions ▸ h.subscribed⟩
    rw [hsame, hiff]
    constructor
    · intro hcond c' bus' bytes' hbus' hforward hasks
      obtain rfl := hcopy c' bus' hbus'
      cases hdecide.symm.trans hforward
      exact hcond hasks
    · exact fun hcond => hcond c bus bytes hbus hdecide

/-- A forwarded command that asks for a reply path is relayed exactly if its deadline is in range,
its topic is subscribed and its publish succeeds. -/
theorem downlinked_mem_processCommand_iff (h : s.processCommand S o i = some (s', bumps))
    {c : Copy Bytes} {bus : Bus Bytes} {bytes : Bytes} (hbus : s.bus.recv i = some (c, bus))
    (hforward : S.engine.decide S.codec .downlink c.topic c.payload = .forward bytes)
    (hasks : AsksForReply S o.mint bytes) : .downlinked ∈ bumps ↔
      Instant.checkedAdd o.now s.correlator.ttl ≠ none ∧ o.subscribed = .ok ∧
        o.published = .ok := by
  obtain ⟨c', bus', hbus', hafter⟩ := processCommand_eq_some h
  cases hbus.symm.trans hbus'
  rw [hforward] at hafter
  obtain ⟨t, hphase, hcorrelator, -, hend⟩ := hafter
  have hiff := downlinked_mem_proceed_iff (o := o) hphase hasks
  rwa [← hend, hcorrelator] at hiff

end Downlink

/-- The processing of a command comes to an end.  That it leaves the correlation map and the set of
subscribed reply topics as they were, unless the command is published, holds exactly if the command
is not forwarded or asks for no reply path, or the map is below its bound and either the deadline
overflows or the subscribe of the minted topic fails without an effect, or the command is published:
its deadline is in range, and its subscribe and its publish succeed. -/
theorem replies_unchanged_iff [Inhabited ρ] (S : Setup Bytes ρ) (o : CallOutcomes) (i : ℕ)
    {s s' : Downlink Bytes} {bumps : List Bump} (hnew : s.IsNew o.mint)
    (h : s.processCommand S o i = some (s', bumps)) :
    o.next i (s'.pumps i) = none ∧
      ((.downlinked ∉ bumps → s.SameReplies s') ↔ ∀ c bus bytes, s.bus.recv i = some (c, bus) →
        S.engine.decide S.codec .downlink c.topic c.payload = .forward bytes →
        Downlink.AsksForReply S o.mint bytes →
          (s.correlator.pending.length < s.correlator.maxPending ∧
            (Instant.checkedAdd o.now s.correlator.ttl = none ∨ o.subscribed = .failed false)) ∨
          (Instant.checkedAdd o.now s.correlator.ttl ≠ none ∧ o.subscribed = .ok ∧
            o.published = .ok)) := by
  have hsame := Downlink.sameReplies_processCommand_iff hnew h
  have hrelayed : ∀ c bus bytes, s.bus.recv i = some (c, bus) →
      S.engine.decide S.codec .downlink c.topic c.payload = .forward bytes →
      Downlink.AsksForReply S o.mint bytes → (.downlinked ∈ bumps ↔
        Instant.checkedAdd o.now s.correlator.ttl ≠ none ∧ o.subscribed = .ok ∧
          o.published = .ok) :=
    fun _ _ _ => Downlink.downlinked_mem_processCommand_iff h
  constructor
  · obtain ⟨⟨t, b⟩, -, heq⟩ := Option.map_eq_some_iff.mp h
    cases heq
    refine Downlink.next_proceed ?_
    cases t.pumps i <;> simp [Downlink.stepsLeft]
  constructor
  · intro hunchanged c bus bytes hbus hforward hasks
    rw [← hrelayed c bus bytes hbus hforward hasks]
    by_cases hpublished : .downlinked ∈ bumps
    · exact Or.inr hpublished
    · exact Or.inl (hsame.mp (hunchanged hpublished) c bus bytes hbus hforward hasks)
  · intro hcond hunpublished
    refine hsame.mpr fun c bus bytes hbus hforward hasks => ?_
    refine (hcond c bus bytes hbus hforward hasks).resolve_right fun hpublished => ?_
    exact hunpublished ((hrelayed c bus bytes hbus hforward hasks).mpr hpublished)

/-! ### Two commands -/

namespace Downlink

/-- A command with a reply path in the queue of the first downlink pump of device `gw-01`. -/
def commandReceived : Downlink (Message Unit) :=
  { start Setup.gw01 with
    bus := Bus.start.publish Setup.gw01.siteSubscriptions "ecv1/gw-01/adapter/main/cmd/write"
      (.sample (some "site/replies/7")) }

/-- The reply topic of the command is subscribed, and its publish on the device bus fails. -/
def publishFails : CallOutcomes where
  mint := "r-1"
  now := 0
  expired := .ok
  subscribed := .ok
  dropped := .ok
  published := .failed

/-- The topic that is minted for the command is new. -/
theorem isNew_commandReceived : commandReceived.IsNew "r-1" :=
  ⟨List.not_mem_nil, List.not_mem_nil⟩

end Downlink

/-- A command whose publish fails leaves its entry in the map. -/
theorem failed_publish_leaves_entry :
    ¬ ∀ s, (Downlink.system Setup.gw01).Reachable System.anyStep s → ∀ o s' bumps,
      s.IsNew o.mint → s.processCommand Setup.gw01 o 0 = some (s', bumps) →
        .downlinked ∉ bumps → s.SameReplies s' := by
  intro hall
  have hreach : (Downlink.system Setup.gw01).Reachable System.anyStep Downlink.commandReceived :=
    .step (a := .publish "ecv1/gw-01/adapter/main/cmd/write" (.sample (some "site/replies/7")))
      (.init rfl) trivial rfl
  have hsame := hall _ hreach Downlink.publishFails _ _ Downlink.isNew_commandReceived rfl
    (by decide)
  have htopics : ["r-1"] = [] := congrArg ReplyCorrelator.topics hsame.correlator
  cases htopics

/-- A command whose subscribe fails leaves the reply state as it was. -/
theorem replies_unchanged_gw01 : ∃ s' bumps, Downlink.commandReceived.processCommand Setup.gw01
    { Downlink.publishFails with subscribed := .failed false } 0 = some (s', bumps) ∧
      .downlinked ∉ bumps ∧ Downlink.commandReceived.SameReplies s' :=
  ⟨_, _, rfl, by decide, (replies_unchanged_iff Setup.gw01 _ 0 Downlink.isNew_commandReceived
    rfl).2.mpr (fun _ _ _ _ _ _ => Or.inl ⟨by decide, Or.inr rfl⟩) (by decide)⟩

end UnsBridge
