import UnsBridge.Lib.Ownership
import UnsBridge.ReplySubscriptions

/-!
# The reply paths

The reply path of a command is its entry in the correlation map, the subscription of its topic, and
the task that is going to receive from that subscription: the pump of the command first, then the
reply pump that it spawns.  Minted topics and subscription handles are each owned by one task, and
`ReplyPaths` shows that the subscription stands for as long as the entry does, whatever subscribes
and unsubscribes fail: nobody releases a topic before its entry has left.
-/

namespace UnsBridge

open Leases Ownership Transition

variable {Bytes ρ : Type}

/-- The minted topic that a downlink pump has taken on. -/
def DownlinkPhase.topic : DownlinkPhase Bytes → Option String
  | .expiring _ _ t | .subscribing _ t | .checking _ t _ => some t
  | _ => none

/-- The minted topic that a reply pump has taken on. -/
def ReplyPhase.topic : ReplyPhase Bytes → Option String
  | .waiting t _ | .received t _ => some t
  | _ => none

/-- The subscription that a downlink pump holds, with its topic. -/
def DownlinkPhase.hold : DownlinkPhase Bytes → Option (ℕ × String)
  | .checking _ t subscription => some (subscription, t)
  | _ => none

/-- The subscription that a reply pump holds, with its topic. -/
def ReplyPhase.hold : ReplyPhase Bytes → Option (ℕ × String)
  | .waiting t subscription => some (subscription, t)
  | _ => none

namespace Downlink

/-- Who owns which minted topic: the downlink pumps first, then the reply pumps. -/
def topicOwners (s : Downlink Bytes) : ℕ ⊕ ℕ → Option String :=
  owners DownlinkPhase.topic ReplyPhase.topic s.pumps s.replyPumps

/-- Who holds which subscription. -/
def holds (s : Downlink Bytes) : ℕ ⊕ ℕ → Option (ℕ × String) :=
  owners DownlinkPhase.hold ReplyPhase.hold s.pumps s.replyPumps

/-- Who owns which subscription handle. -/
def handleOwners (s : Downlink Bytes) : ℕ ⊕ ℕ → Option ℕ := Option.map Prod.fst ∘ s.holds

/-- The reply paths of a state: topics and handles have one owner, a subscription has one topic,
nobody is about to release the topic of a live entry, and the subscription that a task holds for a
live entry stands. -/
structure ReplyPaths (s : Downlink Bytes) : Prop where
  keys : s.Keys
  topics : Exclusive s.topicOwners {t | t ∈ s.recordedTopics}
  handles : Exclusive s.handleOwners {n | n < s.nextSubscription}
  below : ∀ p ∈ s.subscriptions, p.1 < s.nextSubscription
  one : ∀ n t t', (n, t) ∈ s.subscriptions → (n, t') ∈ s.subscriptions → t = t'
  released : ∀ t, (.release, t) ∈ s.leases.duties → t ∉ s.correlator.topics ∧ t ∈ s.recordedTopics
  stands : ∀ a n t, s.holds a = some (n, t) → t ∈ s.correlator.topics → (n, t) ∈ s.subscriptions

variable {s s' : Downlink Bytes}

/-- Who holds a subscription owns its handle. -/
theorem handleOwners_of_holds {a : ℕ ⊕ ℕ} {n : ℕ} {t : String} (h : s.holds a = some (n, t)) :
    s.handleOwners a = some n :=
  congrArg (Option.map Prod.fst) h

/-- Who holds a subscription owns its topic. -/
theorem topicOwners_of_holds {a : ℕ ⊕ ℕ} {n : ℕ} {t : String} (h : s.holds a = some (n, t)) :
    s.topicOwners a = some t := by
  cases a with
  | inl i =>
    simp only [holds, topicOwners, owners, Sum.elim_inl, Function.comp_apply] at h ⊢
    cases hphase : s.pumps i <;> simp_all [DownlinkPhase.hold, DownlinkPhase.topic]
  | inr k =>
    simp only [holds, topicOwners, owners, Sum.elim_inr, Function.comp_apply] at h ⊢
    cases hphase : s.replyPumps k <;> simp_all [ReplyPhase.hold, ReplyPhase.topic]

section Owners

variable {i k : ℕ} {phase : DownlinkPhase Bytes} {phase' : ReplyPhase Bytes} {x x' : Option String}
  {p p' : Option (ℕ × String)}

/-- A downlink pump goes on. -/
theorem topicOwners_pump (hpumps : s'.pumps = Function.update s.pumps i phase)
    (hreply : s'.replyPumps = s.replyPumps) (hx : phase.topic = x) :
    s'.topicOwners = Function.update s.topicOwners (.inl i) x := by
  rw [topicOwners, topicOwners, hpumps, hreply, owners_left, hx]

/-- A reply pump goes on. -/
theorem topicOwners_replyPump (hreply : s'.replyPumps = Function.update s.replyPumps k phase')
    (hpumps : s'.pumps = s.pumps) (hx : phase'.topic = x) :
    s'.topicOwners = Function.update s.topicOwners (.inr k) x := by
  rw [topicOwners, topicOwners, hreply, hpumps, owners_right, hx]

/-- A downlink pump goes on and spawns a reply pump. -/
theorem topicOwners_spawn (hpumps : s'.pumps = Function.update s.pumps i phase)
    (hreply : s'.replyPumps = Function.update s.replyPumps k phase') (hx : phase.topic = x)
    (hx' : phase'.topic = x') :
    s'.topicOwners = Function.update (Function.update s.topicOwners (.inl i) x) (.inr k) x' := by
  rw [topicOwners, topicOwners, hpumps, hreply, owners_right, owners_left, hx, hx']

/-- A downlink pump goes on. -/
theorem holds_pump (hpumps : s'.pumps = Function.update s.pumps i phase)
    (hreply : s'.replyPumps = s.replyPumps) (hp : phase.hold = p) :
    s'.holds = Function.update s.holds (.inl i) p := by
  rw [holds, holds, hpumps, hreply, owners_left, hp]

/-- A reply pump goes on. -/
theorem holds_replyPump (hreply : s'.replyPumps = Function.update s.replyPumps k phase')
    (hpumps : s'.pumps = s.pumps) (hp : phase'.hold = p) :
    s'.holds = Function.update s.holds (.inr k) p := by
  rw [holds, holds, hreply, hpumps, owners_right, hp]

/-- A downlink pump goes on and spawns a reply pump. -/
theorem holds_spawn (hpumps : s'.pumps = Function.update s.pumps i phase)
    (hreply : s'.replyPumps = Function.update s.replyPumps k phase') (hp : phase.hold = p)
    (hp' : phase'.hold = p') :
    s'.holds = Function.update (Function.update s.holds (.inl i) p) (.inr k) p' := by
  rw [holds, holds, hpumps, hreply, owners_right, owners_left, hp, hp']

end Owners

variable [Inhabited ρ] {S : Setup Bytes ρ} {a : DownlinkAction Bytes} {bumps : List Bump}

/-! ### What one step does -/

/-- What a step does to the ownership of the minted topics. -/
theorem Move.topics (hfresh : FreshMints s a) (h : Move S s a s' bumps) :
    Exchange s.topicOwners {t | t ∈ s.recordedTopics} s'.topicOwners
      {t | t ∈ s'.recordedTopics} := by
  cases h with
  | publish | refuse | sweep | swept | reply => exact .keep rfl
  | forward i | pass i | malformed i | panic i | abandon i | undo i | dropped i | settle i =>
    exact .release (.inl i) (topicOwners_pump rfl rfl rfl)
  | record i mint now | replace i mint now =>
    refine .issue (.inl i) mint (topicOwners_pump rfl rfl rfl) (hfresh i mint now rfl) ?_
    simp [recordedTopics, recordings, Downlink.record, setPump, DownlinkEvent.recording]
  | expired i outcome oldest m t hpump | subscribe i m t hpump =>
    exact .hold (.inl i) t (topicOwners_pump rfl rfl rfl) (congrArg DownlinkPhase.topic hpump)
  | spawn i m t k hpump =>
    exact .pass (.inl i) (.inr s.nextReplyPump) t (topicOwners_spawn rfl rfl rfl rfl)
      (congrArg DownlinkPhase.topic hpump)
  | arrive k t subscription payload inbox hphase =>
    exact .hold (.inr k) t (topicOwners_replyPump rfl rfl rfl) (congrArg ReplyPhase.topic hphase)
  | close k | stray k | relay k | discard k | relayed k | settled k =>
    exact .release (.inr k) (topicOwners_replyPump rfl rfl rfl)

/-- What a step does to the subscriptions that the tasks hold. -/
inductive HoldMove (s s' : Downlink Bytes) : Prop
  /-- Nothing. -/
  | keep (hholds : s'.holds = s.holds)
  /-- A task lets go of its subscription. -/
  | release (x : ℕ ⊕ ℕ) (hholds : s'.holds = Function.update s.holds x none)
  /-- A task subscribes. -/
  | open (x : ℕ ⊕ ℕ) (t : String)
      (hholds : s'.holds = Function.update s.holds x (some (s.nextSubscription, t)))
      (hnext : s'.nextSubscription = s.nextSubscription + 1)
      (hopen : (s.nextSubscription, t) ∈ s'.subscriptions)
  /-- A task passes its subscription on. -/
  | pass (x y : ℕ ⊕ ℕ) (p : ℕ × String)
      (hholds : s'.holds = Function.update (Function.update s.holds x none) y (some p))
      (hx : s.holds x = some p)

/-- Every step of the downlink is one of these. -/
theorem Move.holds (h : Move S s a s' bumps) : HoldMove s s' := by
  cases h with
  | publish | refuse | sweep | swept | reply => exact .keep rfl
  | forward i | pass i | malformed i | panic i | abandon i | undo i | dropped i | settle i
  | record i | replace i | expired i =>
    exact .release (.inl i) (holds_pump rfl rfl rfl)
  | subscribe i m t hpump =>
    exact .open (.inl i) t (holds_pump rfl rfl rfl) rfl (List.mem_append_right _ (by simp))
  | spawn i m t k hpump =>
    exact .pass (.inl i) (.inr s.nextReplyPump) (k, t) (holds_spawn rfl rfl rfl rfl)
      (congrArg DownlinkPhase.hold hpump)
  | arrive k | close k | stray k | relay k | discard k | relayed k | settled k =>
    exact .release (.inr k) (holds_replyPump rfl rfl rfl)

omit [Inhabited ρ] in
/-- What a step does to the ownership of the handles. -/
theorem HoldMove.handles (h : HoldMove s s') :
    Exchange s.handleOwners {n | n < s.nextSubscription} s'.handleOwners
      {n | n < s'.nextSubscription} := by
  have hfst : ∀ {own own' : ℕ ⊕ ℕ → Option (ℕ × String)}, own = own' →
      Option.map Prod.fst ∘ own = Option.map Prod.fst ∘ own' := congrArg _
  cases h with
  | keep hholds => exact .keep (hfst hholds)
  | release x hholds => exact .release x ((hfst hholds).trans (Function.comp_update _ _ _ _))
  | «open» x t hholds hnext =>
    refine .issue x s.nextSubscription ((hfst hholds).trans (Function.comp_update _ _ _ _))
      (by simp) ?_
    exact hnext ▸ Nat.lt_succ_self _
  | pass x y p hholds hx =>
    refine .pass x y p.1 ((hfst hholds).trans ?_) (congrArg (Option.map Prod.fst) hx)
    rw [Function.comp_update, Function.comp_update]
    rfl

omit [Inhabited ρ] in
/-- A subscription that a task holds was held before, or has just been opened. -/
theorem HoldMove.back (h : HoldMove s s') {x : ℕ ⊕ ℕ} {p : ℕ × String} (hp : s'.holds x = some p) :
    (∃ y, s.holds y = some p) ∨ p ∈ s'.subscriptions := by
  cases h with
  | keep hholds => exact Or.inl ⟨x, hholds ▸ hp⟩
  | release y hholds =>
    rw [hholds] at hp
    by_cases hxy : x = y
    · simp [hxy] at hp
    · exact Or.inl ⟨x, by rwa [Function.update_of_ne hxy] at hp⟩
  | «open» y t hholds hnext hopen =>
    rw [hholds] at hp
    by_cases hxy : x = y
    · rw [hxy, Function.update_self, Option.some.injEq] at hp
      exact Or.inr (hp ▸ hopen)
    · exact Or.inl ⟨x, by rwa [Function.update_of_ne hxy] at hp⟩
  | pass y z q hholds hq =>
    rw [hholds] at hp
    by_cases hxz : x = z
    · rw [hxz, Function.update_self, Option.some.injEq] at hp
      exact Or.inl ⟨y, hp ▸ hq⟩
    · rw [Function.update_of_ne hxz] at hp
      by_cases hxy : x = y
      · simp [hxy] at hp
      · exact Or.inl ⟨x, by rwa [Function.update_of_ne hxy] at hp⟩

/-- What a step does to the reply subscriptions: one may be opened under the next handle, and those
of a topic that someone was to release may be closed. -/
structure SubscriptionMove (s s' : Downlink Bytes) : Prop where
  next_le : s.nextSubscription ≤ s'.nextSubscription
  back : ∃ t, ∀ p ∈ s'.subscriptions, p ∈ s.subscriptions ∨
    p = (s.nextSubscription, t) ∧ s'.nextSubscription = s.nextSubscription + 1
  kept : ∀ p ∈ s.subscriptions, p ∈ s'.subscriptions ∨ (.release, p.2) ∈ s.leases.duties

omit [Inhabited ρ] in
/-- An unsubscribe of a topic that someone was to release. -/
theorem subscriptionMove_unsubscribe {t : String} {outcome : SubOutcome}
    (hduty : (.release, t) ∈ s.leases.duties) (hnext : s'.nextSubscription = s.nextSubscription)
    (hsubscriptions : s'.subscriptions = (s.unsubscribe t outcome).subscriptions) :
    SubscriptionMove s s' where
  next_le := hnext.ge
  back := by
    refine ⟨t, fun p hp => Or.inl ?_⟩
    rw [hsubscriptions, unsubscribe] at hp
    split at hp
    · exact (List.mem_filter.mp hp).1
    · exact hp
  kept := by
    intro p hp
    rw [hsubscriptions, unsubscribe]
    split
    · by_cases ht : p.2 = t
      · exact Or.inr (ht ▸ hduty)
      · exact Or.inl (List.mem_filter.mpr ⟨hp, by simpa using ht⟩)
    · exact Or.inl hp

/-- Every step of the downlink is one of these. -/
theorem Move.subscriptions (h : Move S s a s' bumps) : SubscriptionMove s s' := by
  cases h with
  | subscribe i m t hpump =>
    refine ⟨Nat.le_succ _, ⟨t, fun p hp => ?_⟩, fun p hp => Or.inl (List.mem_append_left _ hp)⟩
    exact (List.mem_append.mp hp).imp id fun hp => ⟨List.mem_singleton.mp hp, rfl⟩
  | abandon i effect m t hpump =>
    refine ⟨Nat.le_succ _, ⟨t, fun p hp => ?_⟩, fun p hp => Or.inl ?_⟩
    · cases effect with
      | false => exact Or.inl hp
      | true => exact (List.mem_append.mp hp).imp id fun hp => ⟨List.mem_singleton.mp hp, rfl⟩
    · cases effect with
      | false => exact hp
      | true => exact List.mem_append_left _ hp
  | expired i outcome oldest m t hpump =>
    exact subscriptionMove_unsubscribe
      (mem_duties (i := i) (by simp [hpump, DownlinkPhase.duties])) rfl rfl
  | dropped i outcome m t hpump =>
    exact subscriptionMove_unsubscribe
      (mem_duties (i := i) (by simp [hpump, DownlinkPhase.duties])) rfl rfl
  | swept outcome t rest hsweeper =>
    exact subscriptionMove_unsubscribe
      (Or.inr (Or.inl (mem_releases.mpr ⟨rfl, by simp [hsweeper]⟩))) rfl rfl
  | settled k outcome t hphase =>
    exact subscriptionMove_unsubscribe
      (mem_duties_reply (k := k) (by simp [hphase, ReplyPhase.duties])) rfl rfl
  | _ => exact ⟨le_rfl, ⟨"", fun _ hp => Or.inl hp⟩, fun _ hp => Or.inl hp⟩

/-- Who is to release a topic was to release it before, or its entry has just left. -/
theorem Move.releases (h : s.ReplyPaths) (habsent : s.replyPumps s.nextReplyPump = .absent)
    (hfresh : FreshMints s a) (hmove : Move S s a s' bumps) {u : String}
    (hu : (.release, u) ∈ s'.leases.duties) :
    (.release, u) ∈ s.leases.duties ∨ u ∉ s'.correlator.topics ∧ u ∈ s.recordedTopics := by
  have hback : ∀ gone new, Trades gone new s.leases.duties s'.leases.duties →
      (.release, u) ∈ s.leases.duties ∨ (.release, u) ∈ new := fun _ _ htrade => htrade.back hu
  -- the topics of the entries that a step removes are not those of the others
  have hleft : ∀ kept, s.correlator.topics.Perm (u :: kept) → u ∉ kept ∧ u ∈ s.recordedTopics := by
    refine fun kept hperm => ⟨?_, h.keys.recorded u (hperm.mem_iff.mpr List.mem_cons_self)⟩
    exact (List.nodup_cons.mp (hperm.nodup_iff.mp h.keys.nodup)).1
  cases hmove with
  | publish | refuse | reply => exact Or.inl hu
  | forward i c bus bytes hpump | pass i mint now m msg hpump | malformed i mint now m hpump
  | panic i mint now m pending hpump | settle i outcome m b hpump
  | expired i outcome oldest m t hpump | subscribe i m t hpump | abandon i effect m t hpump
  | dropped i outcome m t hpump | record i mint now m msg site bytes hpump =>
    have hduties := congrArg DownlinkPhase.duties hpump
    refine (hback _ _ (trades_pump rfl hduties rfl rfl rfl)).imp id fun hnew => ?_
    simp [DownlinkPhase.duties] at hnew
  | replace i mint now m msg site bytes oldest p rest hpump hdecode hreply hencode hpending =>
    have hduties := congrArg DownlinkPhase.duties hpump
    refine (hback _ _ (trades_pump rfl hduties rfl rfl rfl)).imp id fun hnew => ?_
    obtain rfl : u = oldest := by simpa [DownlinkPhase.duties] using hnew
    obtain ⟨hrest, hrecorded⟩ :=
      hleft (rest.map Prod.fst) (by simp [ReplyCorrelator.topics, hpending])
    refine ⟨fun hmem => ?_, hrecorded⟩
    have htopics : u ∈ rest.map Prod.fst ++ [mint] := by
      simpa [ReplyCorrelator.topics, setPending, Downlink.record, setPump] using hmem
    rcases List.mem_append.mp htopics with hmem | hmem
    · exact hrest hmem
    · exact hfresh i mint now rfl (List.mem_singleton.mp hmem ▸ hrecorded)
  | spawn i m t k hpump hlive =>
    refine (hback _ _ (trades_spawn habsent hpump)).imp id fun hnew => ?_
    exact absurd hnew (Set.notMem_empty _)
  | undo i m t k hpump hgone =>
    have hduties := congrArg DownlinkPhase.duties hpump
    refine (hback _ _ (trades_pump rfl hduties rfl rfl rfl)).imp id fun hnew => ?_
    obtain rfl : u = t := by simpa [DownlinkPhase.duties] using hnew
    exact ⟨hgone, h.topics.issued (.inl i) u (congrArg DownlinkPhase.topic hpump)⟩
  | sweep now hidle =>
    refine (hback _ _ (trades_sweep hidle rfl rfl rfl)).imp id fun hnew => ?_
    have hu : u ∈ (s.correlator.sweep now).1 := (mem_releases.mp hnew).2
    have happend := s.correlator.sweep_append now
    refine ⟨fun hmem => ?_, h.keys.recorded u (happend ▸ List.mem_append_left _ hu)⟩
    exact (List.nodup_append.mp (happend ▸ h.keys.nodup)).2.2 u hu u hmem rfl
  | swept outcome t rest hsweeper =>
    refine (hback _ _ (trades_swept hsweeper rfl rfl rfl)).imp id fun hnew => ?_
    exact absurd hnew (Set.notMem_empty _)
  | arrive k t subscription payload inbox hphase | close k t subscription hphase
  | stray k t payload hphase | settled k outcome t hphase =>
    have hduties := congrArg ReplyPhase.duties hphase
    refine (hback _ _ (trades_replyPump rfl hduties rfl rfl rfl)).imp id fun hnew => ?_
    simp [ReplyPhase.duties] at hnew
  | relayed k outcome t b hphase =>
    have hduties := congrArg ReplyPhase.duties hphase
    refine Or.inl ((hback _ _ (trades_replyPump rfl hduties rfl rfl rfl)).elim id fun hnew => ?_)
    exact mem_duties_reply (k := k) (hphase ▸ hnew)
  | relay k t payload bytes p before after hphase hpending hprepare
  | discard k t payload reason p before after hphase hpending =>
    have hduties := congrArg ReplyPhase.duties hphase
    refine (hback _ _ (trades_replyPump rfl hduties rfl rfl rfl)).imp id fun hnew => ?_
    obtain rfl : u = t := by simpa [ReplyPhase.duties] using hnew
    apply hleft ((before ++ after).map Prod.fst)
    simp only [ReplyCorrelator.topics, hpending, List.map_append, List.map_cons]
    exact List.perm_middle

/-- Every step keeps the reply paths. -/
theorem ReplyPaths.move (h : s.ReplyPaths)
    (habsent : s.replyPumps s.nextReplyPump = .absent) (hfresh : FreshMints s a)
    (hmove : Move S s a s' bumps) : s'.ReplyPaths := by
  have hmap := hmove.map
  have hsubs := hmove.subscriptions
  have hrecorded := hmap.subset_recordedTopics
  obtain ⟨t₀, hopened⟩ := hsubs.back
  refine ⟨h.keys.move hfresh hmap, h.topics.exchange hrecorded (hmove.topics hfresh),
    h.handles.exchange (fun n hn => hn.trans_le hsubs.next_le) hmove.holds.handles, ?_, ?_, ?_, ?_⟩
  · intro p hp
    rcases hopened p hp with hp | ⟨rfl, hnext⟩
    · exact (h.below p hp).trans_le hsubs.next_le
    · exact hnext ▸ Nat.lt_succ_self _
  · intro n t t' ht ht'
    rcases hopened _ ht with ht | ⟨heq, -⟩ <;> rcases hopened _ ht' with ht' | ⟨heq', -⟩
    · exact h.one n t t' ht ht'
    · exact absurd (h.below _ ht) (by simp [(Prod.mk.inj heq').1])
    · exact absurd (h.below _ ht') (by simp [(Prod.mk.inj heq).1])
    · exact (Prod.mk.inj heq).2.trans (Prod.mk.inj heq').2.symm
  · intro t ht
    rcases hmove.releases h habsent hfresh ht with ht | ⟨hgone, hrec⟩
    · obtain ⟨hgone, hrec⟩ := h.released t ht
      exact ⟨hmap.notMem_topics hfresh hrec hgone, hrecorded hrec⟩
    · exact ⟨hgone, hrecorded hrec⟩
  · intro x n t hx ht
    rcases hmove.holds.back hx with ⟨y, hy⟩ | hopen
    · have hrec : t ∈ s.recordedTopics := h.topics.issued y t (topicOwners_of_holds hy)
      have hlive : t ∈ s.correlator.topics := by
        by_contra hgone
        exact hmap.notMem_topics hfresh hrec hgone ht
      exact (hsubs.kept _ (h.stands y n t hy hlive)).resolve_right fun hduty =>
        (h.released t hduty).1 hlive
    · exact hopen

omit [Inhabited ρ] in
/-- There are no reply paths at the start. -/
theorem replyPaths_start (S : Setup Bytes ρ) : (start S).ReplyPaths := by
  have htopics : ∀ x, (start S).topicOwners x = none := by rintro (i | k) <;> rfl
  have hholds : ∀ x, (start S).holds x = none := by rintro (i | k) <;> rfl
  have hhandles : ∀ x, (start S).handleOwners x = none := fun x => congrArg _ (hholds x)
  have hduties : ∀ x, x ∉ (start S).leases.duties := by
    simp [start, leases, DownlinkPhase.duties, ReplyPhase.duties, releases]
  refine ⟨(leased_start S).keys, ⟨?_, ?_⟩, ⟨?_, ?_⟩, by simp [start], by simp [start], ?_, ?_⟩
  · exact fun x y t hx => absurd hx (by simp [htopics])
  · exact fun x t hx => absurd hx (by simp [htopics])
  · exact fun x y n hx => absurd hx (by simp [hhandles])
  · exact fun x n hx => absurd hx (by simp [hhandles])
  · exact fun t ht => absurd ht (hduties _)
  · exact fun x n t hx => absurd hx (by simp [hholds])

/-- The reply paths are right in every state of every run with fresh mints. -/
theorem replyPaths (h : (system S).Reachable FreshMints s) : s.ReplyPaths :=
  move_invariant (replyPaths_start S) (fun _ _ _ _ hreach hpaths hfresh hmove =>
    hpaths.move ((books hreach).absent _ le_rfl) hfresh hmove) h

end Downlink

end UnsBridge
