import UnsBridge.Io.RelayIo
import UnsBridge.Lib.Leases

/-!
# The reply subscriptions on the device bus

The correlation map is a registry of leased resources: its keys are the minted topics, and the
resource of a topic is its subscription on the device bus.  The downlink pumps, the sweep and the
reply pumps subscribe and unsubscribe at moments of their own, so that a topic can be expired or
evicted before, during or after its own subscribe call.  `Move.lease` shows that all of their steps
are steps of such a registry; what its invariant says when no task has anything left to do is
`reply_subscriptions`: exactly the topics of the map are subscribed.
-/

namespace UnsBridge

open Leases Transition

variable {Bytes ρ : Type}

/-- What a downlink pump has to do for bridge topics. -/
def DownlinkPhase.duties : DownlinkPhase Bytes → Set (Duty × String)
  | .expiring oldest _ t => {(.acquire, t), (.release, oldest)}
  | .subscribing _ t => {(.acquire, t)}
  | .checking _ t _ => {(.verify, t)}
  | .dropping _ t => {(.release, t)}
  | .idle | .forwarded _ | .publishing _ | .dead => ∅

/-- What a reply pump has to do for its bridge topic. -/
def ReplyPhase.duties : ReplyPhase Bytes → Set (Duty × String)
  | .publishing t | .settling t => {(.release, t)}
  | .absent | .waiting _ _ | .received _ _ | .done => ∅

namespace Downlink

/-- The registry of the bridge topics. -/
def leases (s : Downlink Bytes) : Leases.State String where
  live := {t | t ∈ s.correlator.topics}
  held := {t | t ∈ s.subscriptions.map Prod.snd}
  used := {t | t ∈ s.recordedTopics}
  duties := (⋃ i, (s.pumps i).duties) ∪
    (releases {t | t ∈ s.sweeper} ∪ ⋃ k, (s.replyPumps k).duties)

/-- No two pumps subscribe one topic. -/
def OneSubscriber (s : Downlink Bytes) : Prop :=
  ∀ i j t, (.acquire, t) ∈ (s.pumps i).duties → (.acquire, t) ∈ (s.pumps j).duties → i = j

/-- The steps of a run before shutdown, as far as the reply subscriptions are concerned: mints are
fresh, no deadline overflows, unsubscribes succeed, and a failed subscribe leaves no subscription.
-/
structure Clean (s : Downlink Bytes) (a : DownlinkAction Bytes) : Prop where
  fresh : FreshMints s a
  noOverflow : ∀ i mint now, a = .rewriteDownlink i mint now →
    (Instant.checkedAdd now s.correlator.ttl).isSome = true
  unsubscribe : ∀ i outcome, (a = .expired i outcome ∨ a = .dropped i outcome ∨
    a = .swept outcome ∨ a = .replySettled i outcome) → outcome = .ok
  subscribe : ∀ i, a ≠ .subscribed i (.failed true)

section Duties

variable {s s' : Downlink Bytes}

/-- A pump that goes on exchanges its duties. -/
theorem trades_pump {i : ℕ} {phase : DownlinkPhase Bytes} {gone new : Set (Duty × String)}
    (hpumps : s'.pumps = Function.update s.pumps i phase) (hgone : (s.pumps i).duties = gone)
    (hnew : phase.duties = new) (hsweeper : s'.sweeper = s.sweeper)
    (hreply : s'.replyPumps = s.replyPumps) :
    Trades gone new s.leases.duties s'.leases.duties := by
  subst hgone hnew
  have hduties : (fun j => (s'.pumps j).duties) =
      Function.update (fun j => (s.pumps j).duties) i phase.duties := by
    rw [hpumps, ← Function.comp_def DownlinkPhase.duties, Function.comp_update]
    rfl
  have htrade := Trades.update (fun j => (s.pumps j).duties) i phase.duties
  rw [← hduties] at htrade
  simpa only [leases, hsweeper, hreply] using htrade.union _

/-- A reply pump that goes on exchanges its duties. -/
theorem trades_replyPump {k : ℕ} {phase : ReplyPhase Bytes} {gone new : Set (Duty × String)}
    (hreply : s'.replyPumps = Function.update s.replyPumps k phase)
    (hgone : (s.replyPumps k).duties = gone) (hnew : phase.duties = new)
    (hsweeper : s'.sweeper = s.sweeper) (hpumps : s'.pumps = s.pumps) :
    Trades gone new s.leases.duties s'.leases.duties := by
  subst hgone hnew
  have hduties : (fun j => (s'.replyPumps j).duties) =
      Function.update (fun j => (s.replyPumps j).duties) k phase.duties := by
    rw [hreply, ← Function.comp_def ReplyPhase.duties, Function.comp_update]
    rfl
  have htrade := Trades.update (fun j => (s.replyPumps j).duties) k phase.duties
  rw [← hduties] at htrade
  have hunion := htrade.union ((⋃ i, (s.pumps i).duties) ∪ releases {t | t ∈ s.sweeper})
  simpa only [leases, hsweeper, hpumps, Set.union_comm, Set.union_left_comm, Set.union_assoc]
    using hunion

/-- The sweep takes topics on and lets topics go. -/
theorem trades_sweeper {gone new : Set (Duty × String)}
    (hgone : ∀ t ∈ s.sweeper, t ∈ s'.sweeper ∨ (.release, t) ∈ gone)
    (hback : ∀ t ∈ s'.sweeper, t ∈ s.sweeper ∨ (.release, t) ∈ new)
    (hnew : new ⊆ releases {t | t ∈ s'.sweeper}) (hpumps : s'.pumps = s.pumps)
    (hreply : s'.replyPumps = s.replyPumps) :
    Trades gone new s.leases.duties s'.leases.duties := by
  have htrade : Trades gone new (releases {t | t ∈ s.sweeper}) (releases {t | t ∈ s'.sweeper}) := by
    refine ⟨?_, ?_, hnew⟩
    · rintro _ ⟨t, ht, rfl⟩
      exact (hgone t ht).imp (fun ht => mem_releases.mpr ⟨rfl, ht⟩) id
    · rintro _ ⟨t, ht, rfl⟩
      exact (hback t ht).imp (fun ht => mem_releases.mpr ⟨rfl, ht⟩) id
  have hunion := htrade.union ((⋃ i, (s.pumps i).duties) ∪ ⋃ k, (s.replyPumps k).duties)
  simpa only [leases, hpumps, hreply, Set.union_comm, Set.union_left_comm, Set.union_assoc]
    using hunion

/-- An idle sweep takes topics on. -/
theorem trades_sweep {topics : List String} (hidle : s.sweeper = [])
    (htopics : s'.sweeper = topics) (hpumps : s'.pumps = s.pumps)
    (hreply : s'.replyPumps = s.replyPumps) :
    Trades ∅ (releases {t | t ∈ topics}) s.leases.duties s'.leases.duties := by
  subst htopics
  refine trades_sweeper (by simp [hidle]) (fun t ht => Or.inr ?_) (fun x hx => hx) hpumps hreply
  exact mem_releases.mpr ⟨rfl, ht⟩

/-- The sweep lets the topic go that it has unsubscribed. -/
theorem trades_swept {t : String} {rest : List String} (hsweeper : s.sweeper = t :: rest)
    (hrest : s'.sweeper = rest) (hpumps : s'.pumps = s.pumps)
    (hreply : s'.replyPumps = s.replyPumps) :
    Trades {(.release, t)} ∅ s.leases.duties s'.leases.duties := by
  subst hrest
  refine trades_sweeper (fun t' ht' => ?_) (fun t' ht' => Or.inl ?_) (Set.empty_subset _) hpumps
    hreply
  · rw [hsweeper] at ht'
    rcases List.mem_cons.mp ht' with rfl | ht'
    · exact Or.inr rfl
    · exact Or.inl ht'
  · exact hsweeper ▸ List.mem_cons_of_mem t ht'

/-- A pump that spawns a reply pump has verified its topic. -/
theorem trades_spawn {i k : ℕ} {m : Command Bytes} {t : String}
    (habsent : s.replyPumps s.nextReplyPump = .absent) (hpump : s.pumps i = .checking m t k) :
    Trades {(.verify, t)} ∅ s.leases.duties
      ({ s.setReplyPump s.nextReplyPump (.waiting t k) with
        nextReplyPump := s.nextReplyPump + 1 }.publishCommand i m).leases.duties := by
  have hduties := congrArg DownlinkPhase.duties hpump
  have hreply : Trades ∅ ∅ s.leases.duties
      (s.setReplyPump s.nextReplyPump (.waiting t k)).leases.duties :=
    trades_replyPump rfl (congrArg ReplyPhase.duties habsent) rfl rfl rfl
  rw [← hreply.eq]
  exact trades_pump rfl hduties rfl rfl rfl

/-- The registry is the same where its four parts are. -/
theorem leases_eq (htopics : s'.correlator.topics = s.correlator.topics)
    (hsubscriptions : s'.subscriptions = s.subscriptions)
    (hrecorded : s'.recordedTopics = s.recordedTopics)
    (hduties : Trades ∅ ∅ s.leases.duties s'.leases.duties) : s'.leases = s.leases := by
  have heq := hduties.eq
  simp only [leases] at heq ⊢
  rw [htopics, hsubscriptions, hrecorded, heq]

/-- An event that records no command leaves the recorded topics alone. -/
theorem recordedTopics_of_log {e : DownlinkEvent Bytes} (hlog : s'.log = s.log ++ [e])
    (he : e.recording = none) : s'.recordedTopics = s.recordedTopics := by
  simp [recordedTopics, recordings, hlog, he]

/-- An event that records no command leaves the used topics of the registry alone. -/
theorem used_of_log {e : DownlinkEvent Bytes} (hlog : s'.log = s.log ++ [e])
    (he : e.recording = none) : s'.leases.used = s.leases.used := by
  simp only [leases, recordedTopics_of_log hlog he]

/-- An unsubscribe that succeeds takes the topic out of the subscribed ones. -/
theorem held_unsubscribe (t : String) :
    (s.unsubscribe t .ok).leases.held = s.leases.held \ {t} := by
  ext t'
  simp only [leases, unsubscribe, SubOutcome.effect, if_true, Set.mem_sdiff, Set.mem_ofPred_eq,
    List.mem_map, List.mem_filter, Set.mem_singleton_iff]
  constructor
  · rintro ⟨p, ⟨hp, hne⟩, rfl⟩
    exact ⟨⟨p, hp, rfl⟩, by simpa using hne⟩
  · rintro ⟨⟨p, hp, rfl⟩, hne⟩
    exact ⟨p, ⟨hp, by simpa using hne⟩, rfl⟩

/-- The duties of a pump are among all duties. -/
theorem mem_duties {i : ℕ} {x : Duty × String} (h : x ∈ (s.pumps i).duties) :
    x ∈ s.leases.duties :=
  Or.inl (Set.mem_iUnion.mpr ⟨i, h⟩)

/-- The duties of a reply pump are among all duties. -/
theorem mem_duties_reply {k : ℕ} {x : Duty × String} (h : x ∈ (s.replyPumps k).duties) :
    x ∈ s.leases.duties :=
  Or.inr (Or.inr (Set.mem_iUnion.mpr ⟨k, h⟩))

/-- Only pumps subscribe. -/
theorem acquire_mem_duties {t : String} :
    (.acquire, t) ∈ s.leases.duties ↔ ∃ i, (.acquire, t) ∈ (s.pumps i).duties := by
  constructor
  · rintro (h | h | h)
    · exact Set.mem_iUnion.mp h
    · cases (mem_releases.mp h).1
    · obtain ⟨k, hk⟩ := Set.mem_iUnion.mp h
      cases hphase : s.replyPumps k <;> simp [hphase, ReplyPhase.duties] at hk
  · rintro ⟨i, hi⟩
    exact mem_duties hi

/-- Without a task between two of its steps there are no duties. -/
theorem Quiescent.notMem_duties (h : s.Quiescent) (x : Duty × String) : x ∉ s.leases.duties := by
  rintro (hx | hx | hx)
  · obtain ⟨i, hi⟩ := Set.mem_iUnion.mp hx
    simp [h.pumps i, DownlinkPhase.duties] at hi
  · obtain ⟨d, t⟩ := x
    simp [h.sweeper] at hx
  · obtain ⟨k, hk⟩ := Set.mem_iUnion.mp hx
    rcases h.replyPumps k with hphase | ⟨t, sub, hphase⟩ | hphase <;>
      simp [hphase, ReplyPhase.duties] at hk

end Duties

variable [Inhabited ρ] {S : Setup Bytes ρ} {s s' : Downlink Bytes} {a : DownlinkAction Bytes}
  {bumps : List Bump}

/-- What is known of the registry in a run before shutdown. -/
structure Leased (s : Downlink Bytes) : Prop where
  keys : s.Keys
  consistent : Consistent s.leases
  one : s.OneSubscriber
  absent : s.replyPumps s.nextReplyPump = .absent

omit [Inhabited ρ] in
/-- Where entries leave the map, the live topics are those of the others. -/
theorem live_of_perm (gone kept : List String) (hkeys : s.Keys)
    (hperm : s.correlator.topics.Perm (gone ++ kept)) :
    {t | t ∈ kept} = s.leases.live \ {t | t ∈ gone} := by
  have hnodup : (gone ++ kept).Nodup := hperm.nodup_iff.mp hkeys.nodup
  ext t
  simp only [leases, Set.mem_sdiff, Set.mem_ofPred_eq, hperm.mem_iff, List.mem_append]
  constructor
  · exact fun ht => ⟨Or.inr ht, fun hgone => (List.nodup_append.mp hnodup).2.2 t hgone t ht rfl⟩
  · rintro ⟨ht | ht, hne⟩
    · exact absurd ht hne
    · exact ht

omit [Inhabited ρ] in
/-- The locked section of `rewrite_downlink` enters a topic. -/
theorem lease_enter {mint : String} {m : Command Bytes} (evicted : Set String)
    (hfresh : mint ∉ s.recordedTopics) (hevicted : evicted ⊆ s.leases.live)
    (hlive : s'.leases.live = insert mint (s.leases.live \ evicted))
    (hheld : s'.leases.held = s.leases.held) (hlog : s'.log = s.log ++ [.recorded m.copy mint])
    (hduties : Trades ∅ (insert (.acquire, mint) (releases evicted)) s.leases.duties
      s'.leases.duties) : Leases.Step s.leases s'.leases := by
  refine .enter mint evicted hfresh hevicted hlive hheld ?_ hduties
  ext t
  simp [leases, recordedTopics, recordings, hlog, DownlinkEvent.recording, or_comm]

omit [Inhabited ρ] in
/-- A reply that is taken removes its topic. -/
theorem lease_take {before after : List (String × Pending)} {t : String} {p : Pending}
    (hkeys : s.Keys) (hpending : s.correlator.pending = before ++ (t, p) :: after) :
    {t' | t' ∈ [t]} ⊆ s.leases.live ∧
      {t' | t' ∈ (before ++ after).map Prod.fst} = s.leases.live \ {t' | t' ∈ [t]} := by
  have hperm : s.correlator.topics.Perm ([t] ++ (before ++ after).map Prod.fst) := by
    simp only [ReplyCorrelator.topics, hpending, List.map_append, List.map_cons]
    exact List.perm_middle
  refine ⟨fun t' ht' => ?_, live_of_perm _ _ hkeys hperm⟩
  have hmem : t' ∈ s.correlator.topics := hperm.mem_iff.mpr (List.mem_append_left _ ht')
  exact hmem

/-- Every step of the downlink is a step of the registry or does not concern it. -/
theorem Move.lease (h : s.Leased) (hclean : Clean s a) (hmove : Move S s a s' bumps) :
    Leases.Step s.leases s'.leases ∨ s'.leases = s.leases := by
  cases hmove with
  | publish => exact Or.inr rfl
  | refuse => exact Or.inr rfl
  | reply => exact Or.inr rfl
  | forward i c bus bytes hpump =>
    have hduties := congrArg DownlinkPhase.duties hpump
    exact Or.inr (leases_eq rfl rfl rfl (trades_pump rfl hduties rfl rfl rfl))
  | pass i mint now m msg hpump =>
    have hduties := congrArg DownlinkPhase.duties hpump
    exact Or.inr (leases_eq rfl rfl (recordedTopics_of_log rfl rfl)
      (trades_pump rfl hduties rfl rfl rfl))
  | malformed i mint now m hpump =>
    have hduties := congrArg DownlinkPhase.duties hpump
    exact Or.inr (leases_eq rfl rfl rfl (trades_pump rfl hduties rfl rfl rfl))
  | settle i outcome m b hpump =>
    have hduties := congrArg DownlinkPhase.duties hpump
    exact Or.inr (leases_eq rfl rfl rfl (trades_pump rfl hduties rfl rfl rfl))
  | panic i mint now m pending hpump hoverflow =>
    exact absurd (hclean.noOverflow i mint now rfl) (by simp [hoverflow])
  | record i mint now m msg site bytes hpump =>
    have hduties := congrArg DownlinkPhase.duties hpump
    refine Or.inl (lease_enter ∅ (hclean.fresh i mint now rfl) (Set.empty_subset _) ?_
      rfl rfl ?_)
    · ext t
      simp [leases, ReplyCorrelator.topics, setPending, Downlink.record, setPump, or_comm]
    · exact trades_pump rfl hduties
        (by simp [DownlinkPhase.duties, releases]) rfl rfl
  | replace i mint now m msg site bytes oldest p rest hpump hdecode hreply hencode hpending =>
    have hduties := congrArg DownlinkPhase.duties hpump
    have hlive := live_of_perm [oldest] (rest.map Prod.fst) h.keys
      (by simp [ReplyCorrelator.topics, hpending])
    refine Or.inl (lease_enter {t | t ∈ [oldest]} (hclean.fresh i mint now rfl) ?_ ?_
      rfl rfl ?_)
    · intro t ht
      simp [leases, ReplyCorrelator.topics, hpending, List.mem_singleton.mp ht]
    · rw [← hlive]
      ext t
      simp [leases, ReplyCorrelator.topics, setPending, Downlink.record, setPump, or_comm]
    · refine trades_pump rfl hduties ?_ rfl rfl
      simp [DownlinkPhase.duties, releases]
  | expired i outcome oldest m t hpump =>
    obtain rfl := hclean.unsubscribe i outcome (Or.inl rfl)
    have hduties := congrArg DownlinkPhase.duties hpump
    refine Or.inl (.release oldest (mem_duties (i := i) (by simp [hpump, DownlinkPhase.duties])) rfl
      (held_unsubscribe oldest) rfl ?_)
    refine Trades.cancel (trades_pump rfl hduties rfl rfl rfl) ?_ ?_ ?_ ?_
    · exact hduties ▸ fun x hx => mem_duties hx
    · simp [DownlinkPhase.duties]
    · simp [DownlinkPhase.duties]
    · simp
  | subscribe i m t hpump =>
    have hduties := congrArg DownlinkPhase.duties hpump
    have hduty : (.acquire, t) ∈ (s.pumps i).duties := by simp [hpump, DownlinkPhase.duties]
    refine Or.inl (.acquire t (mem_duties hduty) rfl ?_
      (used_of_log rfl rfl) ?_ (trades_pump rfl hduties rfl rfl rfl))
    · ext t'
      simp [leases, Downlink.record, setPump, or_comm]
    · rw [acquire_mem_duties]
      rintro ⟨j, hj⟩
      by_cases hji : j = i
      · subst hji
        simp [Downlink.record, setPump, DownlinkPhase.duties] at hj
      · simp only [Downlink.record, setPump, Function.update_of_ne hji] at hj
        exact hji (h.one j i t hj hduty)
  | abandon i effect m t hpump =>
    have hduties := congrArg DownlinkPhase.duties hpump
    have heffect : effect = false := by
      cases effect
      · rfl
      · exact absurd rfl (hclean.subscribe i)
    subst heffect
    refine Or.inl (.giveUp t (mem_duties (i := i) (by simp [hpump, DownlinkPhase.duties])) ?_ rfl
      rfl (trades_pump rfl hduties rfl rfl rfl))
    ext t'
    simp [leases, ReplyCorrelator.topics, ReplyCorrelator.abandon, setPump]
  | spawn i m t k hpump hlive =>
    exact Or.inl (.confirm t hlive rfl rfl (used_of_log rfl rfl) (trades_spawn h.absent hpump))
  | undo i m t k hpump hgone =>
    have hduties := congrArg DownlinkPhase.duties hpump
    refine Or.inl (.revoke t (mem_duties (i := i) (by simp [hpump, DownlinkPhase.duties])) hgone rfl
      rfl rfl (trades_pump rfl hduties rfl rfl rfl))
  | dropped i outcome m t hpump =>
    have hduties := congrArg DownlinkPhase.duties hpump
    obtain rfl := hclean.unsubscribe i outcome (Or.inr (Or.inl rfl))
    refine Or.inl (.release t (mem_duties (i := i) (by simp [hpump, DownlinkPhase.duties])) rfl
      (held_unsubscribe t) (used_of_log rfl rfl)
      (trades_pump rfl hduties rfl rfl rfl))
  | sweep now hidle =>
    have happend := s.correlator.sweep_append now
    have hlive := live_of_perm _ _ h.keys (List.Perm.of_eq happend)
    refine Or.inl (.leave {t | t ∈ (s.correlator.sweep now).1} ?_ hlive rfl rfl ?_)
    · intro t ht
      have hmem : t ∈ s.correlator.topics := happend ▸ List.mem_append_left _ ht
      exact hmem
    · exact trades_sweep hidle rfl rfl rfl
  | swept outcome t rest hsweeper =>
    obtain rfl := hclean.unsubscribe 0 outcome (Or.inr (Or.inr (Or.inl rfl)))
    refine Or.inl (.release t (Or.inr (Or.inl (mem_releases.mpr ⟨rfl, by simp [hsweeper]⟩))) rfl
      (held_unsubscribe t) rfl (trades_swept hsweeper rfl rfl rfl))
  | arrive k t subscription payload inbox hphase =>
    have hduties := congrArg ReplyPhase.duties hphase
    exact Or.inr (leases_eq rfl rfl (recordedTopics_of_log rfl rfl)
      (trades_replyPump rfl hduties rfl rfl rfl))
  | close k t subscription hphase =>
    have hduties := congrArg ReplyPhase.duties hphase
    exact Or.inr (leases_eq rfl rfl rfl (trades_replyPump rfl hduties rfl rfl rfl))
  | stray k t payload hphase =>
    have hduties := congrArg ReplyPhase.duties hphase
    exact Or.inr (leases_eq rfl rfl rfl (trades_replyPump rfl hduties rfl rfl rfl))
  | relay k t payload bytes p before after hphase hpending hprepare =>
    have hduties := congrArg ReplyPhase.duties hphase
    obtain ⟨hlive, hleft⟩ := lease_take h.keys hpending
    have hused : ((s.record (.taken t)).record (.replied t p.siteReplyTo bytes)).leases.used =
        s.leases.used := (used_of_log rfl rfl).trans (used_of_log rfl rfl)
    refine Or.inl (.leave {t' | t' ∈ [t]} hlive hleft rfl hused ?_)
    exact trades_replyPump rfl hduties
      (by simp [ReplyPhase.duties, releases]) rfl rfl
  | discard k t payload reason p before after hphase hpending =>
    have hduties := congrArg ReplyPhase.duties hphase
    obtain ⟨hlive, hleft⟩ := lease_take h.keys hpending
    refine Or.inl (.leave {t' | t' ∈ [t]} hlive hleft rfl (used_of_log rfl rfl) ?_)
    exact trades_replyPump rfl hduties
      (by simp [ReplyPhase.duties, releases]) rfl rfl
  | relayed k outcome t b hphase =>
    have hduties := congrArg ReplyPhase.duties hphase
    refine Or.inr (leases_eq rfl rfl rfl (Trades.cancel (trades_replyPump rfl hduties rfl rfl rfl)
      (hduties ▸ fun x hx => mem_duties_reply hx) ?_ ?_ (Set.empty_subset _)))
    · simp [ReplyPhase.duties]
    · simp [ReplyPhase.duties]
  | settled k outcome t hphase =>
    have hduties := congrArg ReplyPhase.duties hphase
    obtain rfl := hclean.unsubscribe k outcome (Or.inr (Or.inr (Or.inr rfl)))
    exact Or.inl (.release t (mem_duties_reply (k := k) (by simp [hphase, ReplyPhase.duties])) rfl
      (held_unsubscribe t) rfl
      (trades_replyPump rfl hduties rfl rfl rfl))

omit [Inhabited ρ] in
/-- A pump that goes on keeps the subscribers apart if it takes no topic on that another one is
going to subscribe. -/
theorem OneSubscriber.update (h : s.OneSubscriber) {i : ℕ} {phase : DownlinkPhase Bytes}
    (hpumps : s'.pumps = Function.update s.pumps i phase)
    (hphase : ∀ t, (.acquire, t) ∈ phase.duties →
      (.acquire, t) ∈ (s.pumps i).duties ∨ (.acquire, t) ∉ s.leases.duties) : s'.OneSubscriber := by
  intro j k t hj hk
  have hback : ∀ j, (.acquire, t) ∈ (s'.pumps j).duties →
      (.acquire, t) ∈ (s.pumps j).duties ∨ j = i ∧ (.acquire, t) ∉ s.leases.duties := by
    intro j hj
    rw [hpumps] at hj
    by_cases hji : j = i
    · subst hji
      rw [Function.update_self] at hj
      exact (hphase t hj).imp id fun hnot => ⟨rfl, hnot⟩
    · rw [Function.update_of_ne hji] at hj
      exact Or.inl hj
  rcases hback j hj with hj | ⟨rfl, hnot⟩
  · rcases hback k hk with hk | ⟨rfl, hnot⟩
    · exact h j k t hj hk
    · exact absurd (mem_duties hj) hnot
  · rcases hback k hk with hk | ⟨rfl, -⟩
    · exact absurd (mem_duties hk) hnot
    · rfl

/-- Every step keeps the subscribers apart. -/
theorem OneSubscriber.move (h : s.Leased) (hfresh : FreshMints s a)
    (hmove : Move S s a s' bumps) : s'.OneSubscriber := by
  have hmint : ∀ {i : ℕ} {mint : String} {now : Instant}, a = .rewriteDownlink i mint now →
      (.acquire, mint) ∉ s.leases.duties := fun ha hmem =>
    hfresh _ _ _ ha (h.consistent.duty_used _ _ hmem)
  cases hmove with
  | forward => exact h.one.update rfl (by simp [DownlinkPhase.duties])
  | pass => exact h.one.update rfl (by simp [DownlinkPhase.duties])
  | malformed => exact h.one.update rfl (by simp [DownlinkPhase.duties])
  | panic => exact h.one.update rfl (by simp [DownlinkPhase.duties])
  | subscribe => exact h.one.update rfl (by simp [DownlinkPhase.duties])
  | abandon => exact h.one.update rfl (by simp [DownlinkPhase.duties])
  | spawn => exact h.one.update rfl (by simp [DownlinkPhase.duties])
  | undo => exact h.one.update rfl (by simp [DownlinkPhase.duties])
  | dropped => exact h.one.update rfl (by simp [DownlinkPhase.duties])
  | settle => exact h.one.update rfl (by simp [DownlinkPhase.duties])
  | record i mint now m msg site bytes hpump =>
    refine h.one.update rfl fun t ht => Or.inr ?_
    obtain rfl : t = mint := by simpa [DownlinkPhase.duties] using ht
    exact hmint rfl
  | replace i mint now m msg site bytes oldest p rest hpump =>
    refine h.one.update rfl fun t ht => Or.inr ?_
    obtain rfl : t = mint := by simpa [DownlinkPhase.duties] using ht
    exact hmint rfl
  | expired i outcome oldest m t hpump =>
    refine h.one.update rfl fun t' ht' => Or.inl ?_
    obtain rfl : t' = t := by simpa [DownlinkPhase.duties] using ht'
    simp [hpump, DownlinkPhase.duties]
  | _ => exact h.one

/-- Every step keeps what is known of the registry. -/
theorem Leased.move (h : s.Leased) (habsent : ∀ k, s.nextReplyPump ≤ k → s.replyPumps k = .absent)
    (hclean : Clean s a) (hmove : Move S s a s' bumps) : s'.Leased where
  keys := h.keys.move hclean.fresh hmove.map
  consistent := by
    rcases hmove.lease h hclean with hstep | heq
    · exact h.consistent.step hstep
    · exact heq ▸ h.consistent
  one := OneSubscriber.move h hclean.fresh hmove
  absent := hmove.absent habsent _ le_rfl

omit [Inhabited ρ] in
/-- The registry is consistent at the start. -/
theorem leased_start (S : Setup Bytes ρ) : (start S).Leased where
  keys := ⟨List.nodup_nil, List.nodup_nil, fun t ht => by
    simp [start, ReplyCorrelator.topics, ReplyCorrelator.new] at ht⟩
  consistent := by
    constructor <;>
      simp [start, leases, ReplyCorrelator.topics, ReplyCorrelator.new, DownlinkPhase.duties,
        ReplyPhase.duties, releases]
  one i j t hi := by simp [start, DownlinkPhase.duties] at hi
  absent := rfl

/-- The reply subscriptions are a consistent registry in every run before shutdown. -/
theorem leased (h : (system S).Reachable Clean s) : s.Leased :=
  move_invariant (leased_start S) (fun _ _ _ _ hreach hleased hclean hmove =>
    hleased.move (books hreach).absent hclean hmove) h

end Downlink

/-- No reply subscription is leaked and none is missing.  In every run with fresh mints, without
deadline overflow, and in which unsubscribes succeed and failed subscribes leave nothing behind, in
every state in which no task is between two of its steps exactly the topics of the correlation map
are subscribed on the device bus. -/
theorem reply_subscriptions [Inhabited ρ] (S : Setup Bytes ρ) {s : RelayIo Bytes}
    (h : (RelayIo.system S).Reachable (RelayIo.onDown Downlink.Clean) s)
    (hquiescent : s.down.Quiescent) (t : String) :
    t ∈ s.down.subscriptions.map Prod.snd ↔ t ∈ s.down.correlator.topics := by
  have hleased := Downlink.leased (RelayIo.reachable_down h)
  have heq := hleased.consistent.held_eq_live hquiescent.notMem_duties
  exact Set.ext_iff.mp heq t

/-- A sufficient test for a clean step. -/
def isClean (s : RelayIo Bytes) : RelayIoAction Bytes → Bool
  | .down (.rewriteDownlink _ mint now) => mint ∉ s.down.recordedTopics &&
      (Instant.checkedAdd now s.down.correlator.ttl).isSome
  | .down (.expired _ outcome) | .down (.dropped _ outcome) | .down (.swept outcome)
  | .down (.replySettled _ outcome) => outcome = .ok
  | .down (.subscribed _ outcome) => outcome ≠ .failed true
  | _ => true

/-- A step that passes the test is clean. -/
theorem clean_of_isClean (s : RelayIo Bytes) (a : RelayIoAction Bytes) (h : isClean s a = true) :
    RelayIo.onDown Downlink.Clean s a := by
  rintro b rfl
  constructor
  · rintro i mint now rfl
    exact of_decide_eq_true (Bool.and_eq_true_iff.mp h).1
  · rintro i mint now rfl
    exact (Bool.and_eq_true_iff.mp h).2
  · rintro i outcome (rfl | rfl | rfl | rfl) <;> exact of_decide_eq_true h
  · rintro i rfl
    simp [isClean] at h

/-- Two commands with a reply path are relayed.  The entry of the first one expires while its topic
is being subscribed, so that the sweep unsubscribes it too early; the second one keeps its entry. -/
def expiryRun : List (RelayIoAction (Message Unit)) :=
  [.down (.publish "ecv1/gw-01/adapter/main/cmd/write" (.sample (some "site/replies/7"))),
    .down (.publish "ecv1/gw-01/adapter/main/cmd/write" (.sample (some "site/replies/8"))),
    .down (.recv 0), .down (.rewriteDownlink 0 "r-1" 0), .down (.sweep 60000000000),
    .down (.swept .ok), .down (.subscribed 0 .ok), .down (.check 0), .down (.dropped 0 .ok),
    .down (.published 0 .ok), .down (.recv 0), .down (.rewriteDownlink 0 "r-2" 60000000000),
    .down (.subscribed 0 .ok), .down (.check 0), .down (.published 0 .ok)]

/-- After the sample run the relay of device `gw-01` has subscribed the topic of the second command
only. -/
theorem reply_subscriptions_gw01 : ∃ s : RelayIo (Message Unit),
    s.down.correlator.topics = ["r-2"] ∧
      ∀ t, t ∈ s.down.subscriptions.map Prod.snd ↔ t ∈ s.down.correlator.topics := by
  obtain ⟨s, hs, hobs⟩ := System.exists_reachable_of_exec (M := RelayIo.system Setup.gw01)
    isClean clean_of_isClean (.init ⟨true, rfl⟩) expiryRun
    (fun s => (s.down.correlator.topics, s.down.isQuiescent Setup.gw01)) (x := (["r-2"], true))
    (by decide +kernel)
  obtain ⟨htopics, hquiescent⟩ := Prod.mk.inj hobs
  have hbooks := Downlink.books (RelayIo.reachable_down hs)
  exact ⟨s, htopics, reply_subscriptions Setup.gw01 hs (hbooks.quiescent hquiescent)⟩

end UnsBridge
