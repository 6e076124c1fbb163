import UnsBridge.Io.Downlink

/-!
# What a step of the downlink can do

`Downlink.Move` lists the steps of the downlink tasks, one constructor for each outcome of each task
step, with all that is known where it happens; `Downlink.step_move` shows that the list is complete.
The invariants of the reply proxy are proved by cases on it and unfold no step function.
-/

namespace UnsBridge

variable {Bytes ρ : Type} [Inhabited ρ]

namespace Downlink

/-- The correlation entry that a command asks for. -/
def entry (msg : Message ρ) (site : String) (deadline : Instant) : Pending :=
  { siteReplyTo := site, correlationId := msg.header.correlationId, deadline }

/-- The state with other entries in the correlation map. -/
def setPending (s : Downlink Bytes) (pending : List (String × Pending)) : Downlink Bytes :=
  { s with correlator := { s.correlator with pending } }

/-- The steps of the downlink tasks. -/
inductive Move (S : Setup Bytes ρ) (s : Downlink Bytes) :
    DownlinkAction Bytes → Downlink Bytes → List Bump → Prop
  /-- A publish on the site broker. -/
  | publish (topic : String) (payload : Bytes) :
      Move S s (.publish topic payload)
        { s with bus := s.bus.publish S.siteSubscriptions topic payload } []
  /-- A received command is not forwarded. -/
  | refuse (i : ℕ) (c : Copy Bytes) (bus : Bus Bytes) (reason : DropReason)
      (hpump : s.pumps i = .idle) (hrecv : s.bus.recv i = some (c, bus)) :
      Move S s (.recv i) { s with bus } [.drop reason]
  /-- A received command is forwarded. -/
  | forward (i : ℕ) (c : Copy Bytes) (bus : Bus Bytes) (bytes : Bytes) (hpump : s.pumps i = .idle)
      (hrecv : s.bus.recv i = some (c, bus))
      (hdecide : S.engine.decide S.codec .downlink c.topic c.payload = .forward bytes) :
      Move S s (.recv i) ({ s with bus }.setPump i (.forwarded { copy := c, bytes })) []
  /-- A command without a reply path is published. -/
  | pass (i : ℕ) (mint : String) (now : Instant) (m : Command Bytes) (msg : Message ρ)
      (hpump : s.pumps i = .forwarded m) (hdecode : S.codec.fromSlice m.bytes = some msg)
      (hreply : msg.header.replyTo = none) :
      Move S s (.rewriteDownlink i mint now) (s.publishCommand i m) []
  /-- A command cannot be rewritten. -/
  | malformed (i : ℕ) (mint : String) (now : Instant) (m : Command Bytes)
      (hpump : s.pumps i = .forwarded m) :
      Move S s (.rewriteDownlink i mint now) (s.setPump i .idle) [.drop .malformedEnvelope]
  /-- A command is recorded. -/
  | record (i : ℕ) (mint : String) (now : Instant) (m : Command Bytes) (msg : Message ρ)
      (site : String) (bytes : Bytes) (hpump : s.pumps i = .forwarded m)
      (hdecode : S.codec.fromSlice m.bytes = some msg) (hreply : msg.header.replyTo = some site)
      (hencode : S.codec.toVec (msg.setReplyTo (some mint)) = some bytes)
      (hroom : s.correlator.pending.length < s.correlator.maxPending)
      (hdeadline : Instant.checkedAdd now s.correlator.ttl = some (now + s.correlator.ttl)) :
      Move S s (.rewriteDownlink i mint now)
        (((s.setPending (s.correlator.pending ++
            [(mint, entry msg site (now + s.correlator.ttl))])).record
          (.recorded m.copy mint)).setPump i (.subscribing { m with bytes } mint)) []
  /-- A command is recorded in the place of the oldest one. -/
  | replace (i : ℕ) (mint : String) (now : Instant) (m : Command Bytes) (msg : Message ρ)
      (site : String) (bytes : Bytes) (oldest : String) (p : Pending)
      (rest : List (String × Pending)) (hpump : s.pumps i = .forwarded m)
      (hdecode : S.codec.fromSlice m.bytes = some msg) (hreply : msg.header.replyTo = some site)
      (hencode : S.codec.toVec (msg.setReplyTo (some mint)) = some bytes)
      (hpending : s.correlator.pending = (oldest, p) :: rest)
      (hfull : s.correlator.maxPending ≤ s.correlator.pending.length)
      (hdeadline : Instant.checkedAdd now s.correlator.ttl = some (now + s.correlator.ttl)) :
      Move S s (.rewriteDownlink i mint now)
        (((s.setPending (rest ++ [(mint, entry msg site (now + s.correlator.ttl))])).record
          (.recorded m.copy mint)).setPump i (.expiring oldest { m with bytes } mint))
        [.replyExpired]
  /-- The deadline of a command overflows. -/
  | panic (i : ℕ) (mint : String) (now : Instant) (m : Command Bytes)
      (pending : List (String × Pending)) (hpump : s.pumps i = .forwarded m)
      (hoverflow : Instant.checkedAdd now s.correlator.ttl = none)
      (hpending : pending = s.correlator.evictOldest.2) :
      Move S s (.rewriteDownlink i mint now) ((s.setPending pending).setPump i .dead) []
  /-- The evicted topic has been unsubscribed. -/
  | expired (i : ℕ) (outcome : SubOutcome) (oldest : String) (m : Command Bytes) (t : String)
      (hpump : s.pumps i = .expiring oldest m t) :
      Move S s (.expired i outcome) ((s.unsubscribe oldest outcome).setPump i (.subscribing m t)) []
  /-- The minted topic has been subscribed. -/
  | subscribe (i : ℕ) (m : Command Bytes) (t : String) (hpump : s.pumps i = .subscribing m t) :
      Move S s (.subscribed i .ok)
        (({ s with
          nextSubscription := s.nextSubscription + 1
          subscriptions := s.subscriptions ++ [(s.nextSubscription, t)] }.setPump i
            (.checking m t s.nextSubscription)).record (.subscribed t)) []
  /-- The subscribe of the minted topic has failed. -/
  | abandon (i : ℕ) (effect : Bool) (m : Command Bytes) (t : String)
      (hpump : s.pumps i = .subscribing m t) :
      Move S s (.subscribed i (.failed effect))
        ({ s with
          nextSubscription := s.nextSubscription + 1
          subscriptions :=
            if effect then s.subscriptions ++ [(s.nextSubscription, t)] else s.subscriptions
          correlator := s.correlator.abandon t
          abandoned := s.abandoned +
            (s.correlator.pending.length - (s.correlator.abandon t).pending.length) }.setPump i
              .idle) [.publishFailed]
  /-- The entry still lives. -/
  | spawn (i : ℕ) (m : Command Bytes) (t : String) (k : ℕ) (hpump : s.pumps i = .checking m t k)
      (hlive : t ∈ s.correlator.topics) :
      Move S s (.check i)
        ({ s.setReplyPump s.nextReplyPump (.waiting t k) with
          nextReplyPump := s.nextReplyPump + 1 }.publishCommand i m) []
  /-- The entry has gone. -/
  | undo (i : ℕ) (m : Command Bytes) (t : String) (k : ℕ) (hpump : s.pumps i = .checking m t k)
      (hgone : t ∉ s.correlator.topics) :
      Move S s (.check i) (s.setPump i (.dropping m t)) []
  /-- The minted topic has been unsubscribed again. -/
  | dropped (i : ℕ) (outcome : SubOutcome) (m : Command Bytes) (t : String)
      (hpump : s.pumps i = .dropping m t) :
      Move S s (.dropped i outcome) ((s.unsubscribe t outcome).publishCommand i m) []
  /-- The command has been published, or not. -/
  | settle (i : ℕ) (outcome : Outcome) (m : Command Bytes) (b : Bump)
      (hpump : s.pumps i = .publishing m) (hb : b = .downlinked ∨ b = .publishFailed) :
      Move S s (.published i outcome) (s.setPump i .idle) [b]
  /-- The sweep takes the overdue entries. -/
  | sweep (now : Instant) (hidle : s.sweeper = []) :
      Move S s (.sweep now) { s with
        correlator := (s.correlator.sweep now).2
        sweeper := (s.correlator.sweep now).1 } (countExpiry (s.correlator.sweep now).1)
  /-- A topic has been unsubscribed by the sweep. -/
  | swept (outcome : SubOutcome) (t : String) (rest : List String)
      (hsweeper : s.sweeper = t :: rest) :
      Move S s (.swept outcome) { s.unsubscribe t outcome with sweeper := rest } (countExpiry rest)
  /-- A publish on a reply topic. -/
  | reply (t : String) (payload : Bytes) : Move S s (.reply t payload) (s.reply t payload) []
  /-- A reply pump receives a message. -/
  | arrive (k : ℕ) (t : String) (subscription : ℕ) (payload : Bytes) (inbox : ℕ → List Bytes)
      (hphase : s.replyPumps k = .waiting t subscription) :
      Move S s (.replyRecv k)
        (({ s with inbox }.setReplyPump k (.received t payload)).record (.arrived t payload)) []
  /-- A reply pump ends. -/
  | close (k : ℕ) (t : String) (subscription : ℕ)
      (hphase : s.replyPumps k = .waiting t subscription) :
      Move S s (.replyClosed k) (s.setReplyPump k .done) []
  /-- A reply has no entry. -/
  | stray (k : ℕ) (t : String) (payload : Bytes) (hphase : s.replyPumps k = .received t payload) :
      Move S s (.handleReply k) (s.setReplyPump k .done) [.replyStray]
  /-- A reply is relayed. -/
  | relay (k : ℕ) (t : String) (payload bytes : Bytes) (p : Pending)
      (before after : List (String × Pending)) (hphase : s.replyPumps k = .received t payload)
      (hpending : s.correlator.pending = before ++ (t, p) :: after)
      (hprepare : prepareReply S.engine S.codec payload = .forward bytes) :
      Move S s (.handleReply k)
        ((((s.setPending (before ++ after)).record (.taken t)).setReplyPump k
          (.publishing t)).record (.replied t p.siteReplyTo bytes)) []
  /-- A reply is taken and not relayed. -/
  | discard (k : ℕ) (t : String) (payload : Bytes) (reason : DropReason) (p : Pending)
      (before after : List (String × Pending)) (hphase : s.replyPumps k = .received t payload)
      (hpending : s.correlator.pending = before ++ (t, p) :: after) :
      Move S s (.handleReply k)
        (((s.setPending (before ++ after)).record (.taken t)).setReplyPump k (.settling t))
        [.drop reason]
  /-- A reply has been published, or not. -/
  | relayed (k : ℕ) (outcome : Outcome) (t : String) (b : Bump)
      (hphase : s.replyPumps k = .publishing t) (hb : b = .replyRelayed ∨ b = .publishFailed) :
      Move S s (.replyPublished k outcome) (s.setReplyPump k (.settling t)) [b]
  /-- The topic of a reply has been unsubscribed. -/
  | settled (k : ℕ) (outcome : SubOutcome) (t : String) (hphase : s.replyPumps k = .settling t) :
      Move S s (.replySettled k outcome) ((s.unsubscribe t outcome).setReplyPump k .done) []

variable {S : Setup Bytes ρ} {s s' : Downlink Bytes} {bumps : List Bump}

/-- The locked section of `rewrite_downlink`. -/
theorem rewriteDownlink_move {i : ℕ} {mint : String} {now : Instant}
    (h : s.rewriteDownlink S i mint now = some (s', bumps)) :
    Move S s (.rewriteDownlink i mint now) s' bumps := by
  unfold rewriteDownlink at h
  cases hpump : s.pumps i with
  | forwarded m =>
    simp only [hpump] at h
    have hspec := s.correlator.rewriteDownlink_spec S.codec m.bytes mint now
    generalize s.correlator.rewriteDownlink S.codec m.bytes mint now = r at hspec h
    cases hspec with
    | malformed =>
      cases h
      exact .malformed i mint now m hpump
    | passthrough hdec hreply =>
      cases h
      exact .pass i mint now m _ hpump hdec hreply
    | rewritten hdec hreply henc hdl =>
      rcases s.correlator.evictOldest_cases with
        ⟨hroom, hev⟩ | ⟨oldest, p, rest, hfull, hpending, hev⟩
      · rw [hev] at h
        cases h
        exact .record i mint now m _ _ _ hpump hdec hreply henc hroom hdl
      · rw [hev] at h
        cases h
        exact .replace i mint now m _ _ _ oldest p rest hpump hdec hreply henc hpending hfull hdl
    | panicked hdl =>
      cases h
      exact .panic i mint now m _ hpump hdl rfl
  | _ => simp [hpump] at h

/-- The locked section of `handle_reply`. -/
theorem handleReply_move {k : ℕ} (h : s.handleReply S k = some (s', bumps)) :
    Move S s (.handleReply k) s' bumps := by
  unfold handleReply at h
  cases hphase : s.replyPumps k with
  | received t payload =>
    simp only [hphase] at h
    cases htake : s.correlator.take t with
    | mk found correlator =>
      cases found with
      | none =>
        simp only [htake, Option.some.injEq, Prod.mk.injEq] at h
        obtain ⟨rfl, rfl⟩ := h
        exact .stray k t payload hphase
      | some site =>
        obtain ⟨before, p, after, hpending, -, rfl, hkept⟩ :=
          ReplyCorrelator.take_eq_some (c := s.correlator) (t := t) (by rw [htake])
        rw [htake] at hkept
        replace hkept : correlator = { s.correlator with pending := before ++ after } := hkept
        subst hkept
        cases hprepare : prepareReply S.engine S.codec payload with
        | forward bytes =>
          simp only [htake, hprepare, Option.some.injEq, Prod.mk.injEq] at h
          obtain ⟨rfl, rfl⟩ := h
          exact .relay k t payload bytes p before after hphase hpending hprepare
        | drop reason =>
          simp only [htake, hprepare, Option.some.injEq, Prod.mk.injEq] at h
          obtain ⟨rfl, rfl⟩ := h
          exact .discard k t payload reason p before after hphase hpending
  | _ => simp [hphase] at h

/-- Every step of the downlink is in the list. -/
theorem step_move {a : DownlinkAction Bytes} (h : s.step S a = some (s', bumps)) :
    Move S s a s' bumps := by
  cases a with
  | publish topic payload =>
    cases h
    exact .publish topic payload
  | recv i =>
    simp only [step, recv] at h
    cases hpump : s.pumps i with
    | idle =>
      cases hrecv : s.bus.recv i with
      | none => simp [hpump, hrecv] at h
      | some p =>
        obtain ⟨c, bus⟩ := p
        cases hdec : S.engine.decide S.codec .downlink c.topic c.payload with
        | forward bytes =>
          simp only [hpump, hrecv, hdec, Option.some.injEq, Prod.mk.injEq] at h
          obtain ⟨rfl, rfl⟩ := h
          exact .forward i c bus bytes hpump hrecv hdec
        | drop reason =>
          simp only [hpump, hrecv, hdec, Option.some.injEq, Prod.mk.injEq] at h
          obtain ⟨rfl, rfl⟩ := h
          exact .refuse i c bus reason hpump hrecv
    | _ => simp [hpump] at h
  | rewriteDownlink i mint now => exact rewriteDownlink_move h
  | expired i outcome =>
    simp only [step, expired] at h
    cases hpump : s.pumps i with
    | expiring oldest m t =>
      simp only [hpump, Option.some.injEq, Prod.mk.injEq] at h
      obtain ⟨rfl, rfl⟩ := h
      exact .expired i outcome oldest m t hpump
    | _ => simp [hpump] at h
  | subscribed i outcome =>
    simp only [step, subscribed] at h
    cases hpump : s.pumps i with
    | subscribing m t =>
      simp only [hpump] at h
      cases outcome with
      | ok =>
        cases h
        exact .subscribe i m t hpump
      | failed effect =>
        cases h
        exact .abandon i effect m t hpump
    | _ => simp [hpump] at h
  | check i =>
    simp only [step, check] at h
    cases hpump : s.pumps i with
    | checking m t k =>
      simp only [hpump, ReplyCorrelator.contains_eq_true_iff] at h
      split at h
      · rename_i hlive
        cases h
        exact .spawn i m t k hpump hlive
      · rename_i hgone
        cases h
        exact .undo i m t k hpump hgone
    | _ => simp [hpump] at h
  | dropped i outcome =>
    simp only [step, dropped] at h
    cases hpump : s.pumps i with
    | dropping m t =>
      simp only [hpump, Option.some.injEq, Prod.mk.injEq] at h
      obtain ⟨rfl, rfl⟩ := h
      exact .dropped i outcome m t hpump
    | _ => simp [hpump] at h
  | published i outcome =>
    simp only [step, published] at h
    cases hpump : s.pumps i with
    | publishing m =>
      simp only [hpump] at h
      cases outcome with
      | ok =>
        cases h
        exact .settle i .ok m _ hpump (Or.inl rfl)
      | failed =>
        cases h
        exact .settle i .failed m _ hpump (Or.inr rfl)
    | _ => simp [hpump] at h
  | sweep now =>
    simp only [step, sweep] at h
    split at h
    · rename_i hidle
      cases h
      exact .sweep now hidle
    · cases h
  | swept outcome =>
    simp only [step, swept] at h
    split at h
    · cases h
    · rename_i t rest hsweeper
      cases h
      exact .swept outcome t rest hsweeper
  | reply t payload =>
    cases h
    exact .reply t payload
  | replyRecv k =>
    simp only [step, replyRecv] at h
    cases hphase : s.replyPumps k with
    | waiting t subscription =>
      simp only [hphase] at h
      split at h
      · cases h
      · cases h
        exact .arrive k t subscription _ _ hphase
    | _ => simp [hphase] at h
  | replyClosed k =>
    simp only [step, replyClosed] at h
    cases hphase : s.replyPumps k with
    | waiting t subscription =>
      simp only [hphase] at h
      split at h
      · cases h
        exact .close k t subscription hphase
      · cases h
    | _ => simp [hphase] at h
  | handleReply k => exact handleReply_move h
  | replyPublished k outcome =>
    simp only [step, replyPublished] at h
    cases hphase : s.replyPumps k with
    | publishing t =>
      simp only [hphase] at h
      cases outcome with
      | ok =>
        cases h
        exact .relayed k .ok t _ hphase (Or.inl rfl)
      | failed =>
        cases h
        exact .relayed k .failed t _ hphase (Or.inr rfl)
    | _ => simp [hphase] at h
  | replySettled k outcome =>
    simp only [step, replySettled] at h
    cases hphase : s.replyPumps k with
    | settling t =>
      simp only [hphase, Option.some.injEq, Prod.mk.injEq] at h
      obtain ⟨rfl, rfl⟩ := h
      exact .settled k outcome t hphase
    | _ => simp [hphase] at h

/-- An invariant that every guarded move keeps holds in every state of every guarded run. -/
theorem move_invariant {P : Downlink Bytes → DownlinkAction Bytes → Prop}
    {I : Downlink Bytes → Prop} (hinit : I (start S))
    (hmove : ∀ s a s' bumps, (system S).Reachable P s → I s → P s a → Move S s a s' bumps → I s')
    {s : Downlink Bytes} (h : (system S).Reachable P s) : I s := by
  apply h.invariant
  · rintro s rfl
    exact hinit
  · intro s a s' hreach hI hP hstep
    obtain ⟨⟨s'', bumps⟩, hs, rfl⟩ := Option.map_eq_some_iff.mp hstep
    exact hmove s a _ bumps hreach hI hP (step_move hs)

end Downlink

end UnsBridge
