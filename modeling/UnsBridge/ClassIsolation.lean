import UnsBridge.Io.UplinkBooks
import UnsBridge.Io.UplinkWatch
import UnsBridge.Lib.Runs

/-!
# Classes do not influence each other

The uplink pumps share one policy and one site connection.  A message has the class of the
subscription whose pump received it.  A class sees the publishes on the device bus, all of them, the
link, the steps of its own pumps and, if it is the class of events, those of the watcher.
`Uplink.restrict` is what there is of a class in a state: its queues and pumps, its slot of the
policy, its messages, and for events the replay buffer and the watcher.

`class_isolated` says that the steps which a class does not see have no influence on that part: how
the pumps of another class go on, what their admissions and publishes come to and how much of their
rate is left is never felt by it.
-/

namespace UnsBridge

open Transition

variable {Bytes ρ : Type}

/-- Whether a class sees an action: a publish on the device bus, a change of the link, a step of one
of its pumps and, for the events, of the watcher. -/
def UplinkAction.concerns (S : Setup Bytes ρ) (cls : UnsClass) : UplinkAction Bytes → Bool
  | .publish _ _ | .link _ => true
  | .recv i | .relayUp i _ | .published i _ => S.pumpClass i = some cls
  | .watch | .watchPublished _ => cls = .evt

/-- The pumps of a class, those of its subscriptions. -/
def Setup.pumps (S : Setup Bytes ρ) (cls : UnsClass) (i : ℕ) : Bool := S.pumpClass i = some cls

/-- The subscriptions of some pumps. -/
def Bus.restrict (pumps : ℕ → Bool) (b : Bus Bytes) : Bus Bytes where
  published := b.published
  queues i := if pumps i then b.queues i else []
  received := b.received.filter fun c => pumps c.subscription

/-- The slot of a class, and the replay buffer if the class is that of events. -/
def UplinkPolicy.restrict {ι : Type} (cls : UnsClass) (p : UplinkPolicy ι) : UplinkPolicy ι where
  classes k := if classIndex cls = some k then p.classes k else { enabled := false, bucket := none }
  evtBuffer := if cls = .evt then p.evtBuffer else []
  evtBufferMax := p.evtBufferMax

/-- The watcher, if the class is that of events. -/
def Watcher.restrict (cls : UnsClass) (w : Watcher Bytes) : Watcher Bytes :=
  if cls = .evt then w else { phase := .starting, wasConnected := false, connected := false }

/-- What there is of a class in a state. -/
def Uplink.restrict (S : Setup Bytes ρ) (cls : UnsClass) (s : Uplink Bytes) : Uplink Bytes where
  bus := s.bus.restrict (S.pumps cls)
  siteUp := s.siteUp
  policy := s.policy.restrict cls
  pumps i := if S.pumps cls i then s.pumps i else .idle
  watcher := s.watcher.restrict cls
  handed := s.handed.filter fun m => m.cls = cls
  delivered := s.delivered.filter fun m => m.cls = cls
  discarded := s.discarded.filter fun m => m.cls = cls
  trace := if cls = .evt then s.trace else s.trace.filter WatchEvent.isLink

/-! ### What the pieces do to a part -/

section Bus

variable {pumps : ℕ → Bool} {b : Bus Bytes} {i : ℕ}

/-- The copies that a publish adds to some subscriptions are those that it adds to them alone. -/
theorem Bus.restrict_publish (subs : List Subscription) (topic : String) (payload : Bytes) :
    (b.publish subs topic payload).restrict pumps =
      ((b.restrict pumps).publish subs topic payload).restrict pumps := by
  unfold Bus.restrict Bus.publish
  congr 1
  · funext j
    by_cases hj : pumps j = true <;> simp [hj]
  · simp

/-- A pump receives what it would receive alone. -/
theorem Bus.recv_restrict (hi : pumps i = true) {subs : List Subscription} (hb : Sound subs b) :
    (b.restrict pumps).recv i = (b.recv i).map fun r => (r.1, r.2.restrict pumps) := by
  have hqueue : (b.restrict pumps).queues i = b.queues i := by simp [restrict, hi]
  unfold Bus.recv
  rw [hqueue]
  cases hq : b.queues i with
  | nil => rfl
  | cons c rest =>
    have hsub : c.subscription = i := (hb.faithful i c (by simp [log, hq])).1
    have hqueues : Function.update (b.restrict pumps).queues i rest =
        fun j => if pumps j then Function.update b.queues i rest j else [] := by
      funext j
      by_cases hji : j = i
      · subst hji
        simp [hi]
      · simp [restrict, hji]
    simp only [Option.map_some, Option.some.injEq, Prod.mk.injEq, true_and]
    rw [hqueues]
    simp [restrict, hsub, hi]

/-- What another pump receives is not seen. -/
theorem Bus.restrict_recv (hi : pumps i = false) {subs : List Subscription} (hb : Sound subs b)
    {c : Copy Bytes} {b' : Bus Bytes} (h : b.recv i = some (c, b')) :
    b'.restrict pumps = b.restrict pumps := by
  obtain ⟨hpub, hreceived, rest, hqueue, hqueues⟩ := recv_eq_some h
  have hsub : c.subscription = i := (hb.faithful i c (by simp [log, hqueue])).1
  unfold restrict
  rw [hpub, hreceived, hqueues]
  congr 1
  · funext j
    by_cases hji : j = i
    · subst hji
      simp [hi]
    · simp [hji]
  · simp [hsub, hi]

end Bus

namespace UplinkPolicy

variable {ι : Type} {p : UplinkPolicy ι} {cls : UnsClass}

/-- No two classes have one slot. -/
theorem classIndex_injective {cls other : UnsClass} {k : Fin 7} (h : classIndex other = some k)
    (h' : classIndex cls = some k) : other = cls := by
  revert k
  cases other <;> cases cls <;> decide

/-- Exchanging the slot of a class commutes with the restriction to it. -/
theorem restrict_update {k : Fin 7} (hk : classIndex cls = some k) (state : ClassState) :
    ({ p with classes := Function.update p.classes k state } : UplinkPolicy ι).restrict cls =
      { p.restrict cls with classes := Function.update (p.restrict cls).classes k state } := by
  unfold restrict
  congr 1
  funext j
  by_cases hj : j = k
  · subst hj
    simp [hk]
  · simp [hj]

/-- Exchanging another slot is not seen. -/
theorem restrict_update_of_ne {k : Fin 7} (hk : classIndex cls ≠ some k) (state : ClassState) :
    ({ p with classes := Function.update p.classes k state } : UplinkPolicy ι).restrict cls =
      p.restrict cls := by
  unfold restrict
  congr 1
  funext j
  by_cases hj : j = k
  · subst hj
    simp [hk]
  · simp [hj]

/-- A class takes its tokens as if it were alone. -/
theorem takeToken_restrict {k : Fin 7} (hk : classIndex cls = some k) (now : Instant) :
    (p.restrict cls).takeToken k now =
      ((p.takeToken k now).1, (p.takeToken k now).2.restrict cls) := by
  have hslot : (p.restrict cls).classes k = p.classes k := by simp [restrict, hk]
  unfold takeToken
  rw [hslot]
  cases hbucket : (p.classes k).bucket with
  | none => rfl
  | some bucket => simp only [restrict_update hk]

/-- The tokens of another class are not seen. -/
theorem restrict_takeToken {k : Fin 7} (hk : classIndex cls ≠ some k) (now : Instant) :
    (p.takeToken k now).2.restrict cls = p.restrict cls := by
  unfold takeToken
  cases (p.classes k).bucket with
  | none => rfl
  | some bucket => exact restrict_update_of_ne hk _

/-- A class is admitted as if it were alone. -/
theorem admitVerdict_restrict (p : UplinkPolicy ι) (cls : UnsClass) (connected : Bool)
    (now : Instant) :
    (p.restrict cls).admitVerdict cls connected now =
      ((p.admitVerdict cls connected now).1,
        (p.admitVerdict cls connected now).2.restrict cls) := by
  unfold admitVerdict
  cases hk : classIndex cls with
  | none => rfl
  | some k =>
    have hslot : (p.restrict cls).classes k = p.classes k := by simp [restrict, hk]
    have hbuffer : cls = .evt → (p.restrict cls).evtBuffer = p.evtBuffer := by
      intro hevt
      simp [restrict, hevt]
    have hmax : (p.restrict cls).evtBufferMax = p.evtBufferMax := rfl
    simp only [hslot, hmax, takeToken_restrict hk]
    cases (p.classes k).enabled with
    | false => rfl
    | true =>
      by_cases hevt : cls = .evt
      · rw [hbuffer hevt]
        split_ifs <;> rfl
      · simp only [hevt, decide_false, Bool.false_and]
        split_ifs <;> rfl

/-- The admission of another class is not seen. -/
theorem restrict_admitVerdict {other : UnsClass} (hne : other ≠ cls) (connected : Bool)
    (now : Instant) : (p.admitVerdict other connected now).2.restrict cls = p.restrict cls := by
  unfold admitVerdict
  cases hk : classIndex other with
  | none => rfl
  | some k =>
    have hslot : classIndex cls ≠ some k := fun h => hne (classIndex_injective hk h)
    simp only
    split_ifs <;> first | rfl | exact restrict_takeToken hslot now

end UplinkPolicy

namespace Uplink

variable {S : Setup Bytes ρ} {cls : UnsClass} {s : Uplink Bytes} {i : ℕ}

/-- The pumps of a class when one of them goes on. -/
theorem pumps_update (hi : S.pumps cls i = true) (pumps : ℕ → UplinkPhase Bytes)
    (phase : UplinkPhase Bytes) :
    (fun j => if S.pumps cls j then Function.update pumps i phase j else .idle) =
      Function.update (fun j => if S.pumps cls j then pumps j else .idle) i phase := by
  funext j
  by_cases hji : j = i
  · subst hji
    simp [hi]
  · simp [hji]

/-- The pumps of a class when another pump goes on. -/
theorem pumps_update_of_other (hi : S.pumps cls i = false) (pumps : ℕ → UplinkPhase Bytes)
    (phase : UplinkPhase Bytes) :
    (fun j => if S.pumps cls j then Function.update pumps i phase j else .idle) =
      fun j => if S.pumps cls j then pumps j else .idle := by
  funext j
  by_cases hji : j = i
  · subst hji
    simp [hi]
  · simp [hji]

/-- A pump of the class goes on. -/
theorem restrict_setPump (hi : S.pumps cls i = true) (phase : UplinkPhase Bytes) :
    (s.setPump i phase).restrict S cls = (s.restrict S cls).setPump i phase := by
  simp [restrict, setPump, pumps_update hi]

/-- Another pump goes on. -/
theorem restrict_setPump_of_other (hi : S.pumps cls i = false) (phase : UplinkPhase Bytes) :
    (s.setPump i phase).restrict S cls = s.restrict S cls := by
  simp [restrict, setPump, pumps_update_of_other hi]

/-- The policy is exchanged. -/
theorem restrict_policy (policy : UplinkPolicy (Forwarded Bytes)) :
    ({ s with policy } : Uplink Bytes).restrict S cls =
      { s.restrict S cls with policy := policy.restrict cls } := rfl

/-- A message of the class is discarded. -/
theorem restrict_discard {m : Forwarded Bytes} (hm : m.cls = cls) :
    (s.discard m).restrict S cls = (s.restrict S cls).discard m := by
  simp [restrict, discard, hm]

/-- A message of another class is discarded. -/
theorem restrict_discard_of_other {m : Forwarded Bytes} (hm : m.cls ≠ cls) :
    (s.discard m).restrict S cls = s.restrict S cls := by
  simp [restrict, discard, hm]

/-- The replay buffer is not seen by another class. -/
theorem restrict_setBuffer (hcls : cls ≠ .evt) (buffer : List (Forwarded Bytes)) :
    (s.setBuffer buffer).restrict S cls = s.restrict S cls := by
  simp [restrict, setBuffer, UplinkPolicy.restrict, hcls]

/-- The events see the replay buffer. -/
theorem restrict_setBuffer_evt (buffer : List (Forwarded Bytes)) :
    (s.setBuffer buffer).restrict S .evt = (s.restrict S .evt).setBuffer buffer := by
  simp [restrict, setBuffer, UplinkPolicy.restrict]

/-- The watcher is not seen by another class, whatever it leaves in the trace. -/
theorem restrict_watcher (hcls : cls ≠ .evt) (watcher : Watcher Bytes) (events : List WatchEvent)
    (hevents : ∀ e ∈ events, e.isLink = false) :
    ({ s with watcher, trace := s.trace ++ events } : Uplink Bytes).restrict S cls =
      s.restrict S cls := by
  have hnone : events.filter WatchEvent.isLink = [] :=
    List.filter_eq_nil_iff.mpr fun e he => by simp [hevents e he]
  simp [restrict, Watcher.restrict, hcls, hnone]

/-- The events see the watcher. -/
theorem restrict_watcher_evt (watcher : Watcher Bytes) (trace : List WatchEvent) :
    ({ s with watcher, trace } : Uplink Bytes).restrict S .evt =
      { s.restrict S .evt with watcher, trace } := by
  simp [restrict, Watcher.restrict]

/-- A message of the class is delivered. -/
theorem restrict_deliver {m : Forwarded Bytes} (hm : m.cls = cls) :
    ({ s with delivered := s.delivered ++ [m] } : Uplink Bytes).restrict S cls =
      { s.restrict S cls with delivered := (s.restrict S cls).delivered ++ [m] } := by
  simp [restrict, hm]

/-- A message of another class is delivered. -/
theorem restrict_deliver_of_other {m : Forwarded Bytes} (hm : m.cls ≠ cls) :
    ({ s with delivered := s.delivered ++ [m] } : Uplink Bytes).restrict S cls =
      s.restrict S cls := by
  simp [restrict, hm]

/-! ### What a step does to a part -/

variable [Inhabited ρ] {s' t : Uplink Bytes} {a : UplinkAction Bytes} {bumps : List Bump}

/-- What another pump holds is of another class. -/
theorem Books.cls_ne (hs : s.Books S) (hi : S.pumps cls i = false) {m : Forwarded Bytes}
    (hm : m ∈ (s.pumps i).load) : m.cls ≠ cls := by
  rintro rfl
  have hcls := (hs.placed.pump i m hm).2
  simp [Setup.pumps, hcls] at hi

/-- What is pushed is an event that a pump holds. -/
theorem Books.push_event (hs : s.Books S) {m : Forwarded Bytes} (hpush : s.Pushes a i m) :
    m ∈ (s.pumps i).load ∧ m.cls = .evt := by
  obtain ⟨hload, hevt, -⟩ := hpush.event hs.wf fun i m hm => (hs.placed.pump i m hm).2
  exact ⟨by simp [hload], hevt⟩

omit [Inhabited ρ] in
/-- A push is a step of its pump. -/
theorem Pushes.concerns {m : Forwarded Bytes} (hpush : s.Pushes a i m) :
    a.concerns S cls = S.pumps cls i := by
  cases hpush <;> rfl

/-- A step that a class does not see changes nothing that the class sees. -/
theorem Move.unseen (hs : s.Books S) (hsees : a.concerns S cls = false)
    (h : Move S s a s' bumps) : s'.restrict S cls = s.restrict S cls := by
  cases h with
  | publish | link => cases hsees
  | refuse i other c bus reason hpump hother hrecv =>
    have hi : S.pumps cls i = false := hsees
    simp [restrict, Bus.restrict_recv hi hs.wf.bus hrecv]
  | hand i other c bus bytes m hpump hother hrecv hdecide hm =>
    have hi : S.pumps cls i = false := hsees
    have hcls : m.cls ≠ cls := by
      rintro rfl
      simp [Setup.pumps, hother, hm] at hi
    simp [restrict, setPump, Bus.restrict_recv hi hs.wf.bus hrecv, hcls, pumps_update_of_other hi]
  | goLive i now m policy hpump hadmits =>
    have hcls : m.cls ≠ cls := hs.cls_ne hsees (by simp [hpump])
    have hpolicy := UplinkPolicy.restrict_admitVerdict (p := s.policy) hcls s.siteUp now
    rw [hadmits] at hpolicy
    rw [restrict_setPump_of_other hsees, restrict_policy, hpolicy]
    rfl
  | capped i now m policy hpump hadmits =>
    have hcls : m.cls ≠ cls := hs.cls_ne hsees (by simp [hpump])
    have hpolicy := UplinkPolicy.restrict_admitVerdict (p := s.policy) hcls s.siteUp now
    rw [hadmits] at hpolicy
    rw [restrict_discard_of_other hcls, restrict_setPump_of_other hsees, restrict_policy, hpolicy]
    rfl
  | disabled i now m hpump | disconnected i now m hpump | lose i m hpump =>
    have hcls : m.cls ≠ cls := hs.cls_ne hsees (by simp [hpump])
    rw [restrict_discard_of_other hcls, restrict_setPump_of_other hsees]
  | store a i m hpush =>
    rw [hpush.concerns] at hsees
    obtain ⟨hmem, hevt⟩ := hs.push_event hpush
    have hcls : cls ≠ .evt := fun heq => hs.cls_ne hsees hmem (heq ▸ hevt)
    rw [restrict_setBuffer hcls, restrict_setPump_of_other hsees]
  | evict a i m oldest rest hpush hon hfull hbuffer =>
    rw [hpush.concerns] at hsees
    obtain ⟨hmem, hevt⟩ := hs.push_event hpush
    have hcls : cls ≠ .evt := fun heq => hs.cls_ne hsees hmem (heq ▸ hevt)
    have hold : oldest.cls = .evt := hs.placed.evt oldest (by simp [Uplink.flow, hbuffer])
    rw [restrict_discard_of_other (hold ▸ hcls.symm), restrict_setBuffer hcls,
      restrict_setPump_of_other hsees]
  | reject a i m hpush =>
    rw [hpush.concerns] at hsees
    have hcls : m.cls ≠ cls := hs.cls_ne hsees (hs.push_event hpush).1
    rw [restrict_discard_of_other hcls, restrict_setPump_of_other hsees]
  | deliver i m hpump =>
    have hcls : m.cls ≠ cls := hs.cls_ne hsees (by simp [hpump])
    exact (restrict_deliver_of_other (s := s.setPump i .idle) hcls).trans
      (restrict_setPump_of_other hsees _)
  | baseline | rise | steady | down | skip | broadcast | broadcasted | enter | count | test
  | complete =>
    exact restrict_watcher (of_decide_eq_false hsees) _ _ (by simp [WatchEvent.isLink])
  | pop m rest =>
    exact (restrict_watcher (of_decide_eq_false hsees) _ _ (by simp [WatchEvent.isLink])).trans
      (restrict_setBuffer (of_decide_eq_false hsees) _)
  | replayed m hphase =>
    have hevt : m.cls = .evt := hs.placed.evt m (by simp [Uplink.flow, Watcher.held, hphase])
    have hcls : cls ≠ .evt := of_decide_eq_false hsees
    exact (restrict_watcher hcls _ _ (by simp)).trans
      (restrict_deliver_of_other (hevt ▸ hcls.symm))
  | requeue m hphase =>
    exact (restrict_watcher (of_decide_eq_false hsees) _ _ (by simp [WatchEvent.isLink])).trans
      (restrict_setBuffer (of_decide_eq_false hsees) _)
  | refuseRequeue m hphase =>
    have hevt : m.cls = .evt := hs.placed.evt m (by simp [Uplink.flow, Watcher.held, hphase])
    have hcls : cls ≠ .evt := of_decide_eq_false hsees
    exact (restrict_watcher hcls _ _ (by simp [WatchEvent.isLink])).trans
      (restrict_discard_of_other (hevt ▸ hcls.symm))

/-- What a class sees of two states is the same. -/
structure SameTo (S : Setup Bytes ρ) (cls : UnsClass) (s t : Uplink Bytes) : Prop where
  siteUp : t.siteUp = s.siteUp
  pumps : ∀ i, S.pumps cls i = true → t.pumps i = s.pumps i
  max : t.policy.evtBufferMax = s.policy.evtBufferMax
  buffer : cls = .evt → t.policy.evtBuffer = s.policy.evtBuffer
  watcher : cls = .evt → t.watcher = s.watcher
  trace : cls = .evt → t.trace = s.trace
  recv : ∀ {i c bus}, S.pumps cls i = true → s.bus.recv i = some (c, bus) →
    ∃ bus', t.bus.recv i = some (c, bus') ∧
      bus'.restrict (S.pumps cls) = bus.restrict (S.pumps cls)
  admitted : ∀ now, (t.policy.admitVerdict cls t.siteUp now).1 =
      (s.policy.admitVerdict cls s.siteUp now).1 ∧
    (t.policy.admitVerdict cls t.siteUp now).2.restrict cls =
      (s.policy.admitVerdict cls s.siteUp now).2.restrict cls

omit [Inhabited ρ] in
/-- What a class sees determines what its pumps can do. -/
theorem sameTo (hs : Bus.Sound S.deviceSubscriptions s.bus)
    (ht : Bus.Sound S.deviceSubscriptions t.bus) (hview : s.restrict S cls = t.restrict S cls) :
    SameTo S cls s t where
  siteUp := (congrArg (fun r => r.siteUp) hview).symm
  pumps i hi := by
    have hpumps := congrFun (congrArg (fun r => r.pumps) hview) i
    simpa [restrict, hi] using hpumps.symm
  max := (congrArg (fun r => r.policy.evtBufferMax) hview).symm
  buffer hevt := by
    have hbuffer := congrArg (fun r => r.policy.evtBuffer) hview
    simpa [restrict, UplinkPolicy.restrict, hevt] using hbuffer.symm
  watcher hevt := by
    have hwatcher := congrArg (fun r => r.watcher) hview
    simpa [restrict, Watcher.restrict, hevt] using hwatcher.symm
  trace hevt := by
    have htrace := congrArg (fun r => r.trace) hview
    simpa [restrict, hevt] using htrace.symm
  recv {i c bus} hi hrecv := by
    have hbus : s.bus.restrict (S.pumps cls) = t.bus.restrict (S.pumps cls) :=
      congrArg (fun r => r.bus) hview
    have halone := Bus.recv_restrict hi hs
    rw [hbus, Bus.recv_restrict hi ht, hrecv] at halone
    obtain ⟨⟨c', bus'⟩, hrecv', hsame⟩ := Option.map_eq_some_iff.mp halone
    obtain ⟨rfl, hsame⟩ := Prod.mk.inj hsame
    exact ⟨bus', hrecv', hsame⟩
  admitted now := by
    have hpolicy : s.policy.restrict cls = t.policy.restrict cls :=
      congrArg (fun r => r.policy) hview
    have hup : s.siteUp = t.siteUp := congrArg (fun r => r.siteUp) hview
    have halone := s.policy.admitVerdict_restrict cls s.siteUp now
    rw [hpolicy, t.policy.admitVerdict_restrict, hup] at halone
    rw [hup]
    exact Prod.mk.inj halone

omit [Inhabited ρ] in
/-- The watcher goes on in the same way in two states that look the same to the events. -/
theorem restrict_watcher_eq (hview : s.restrict S .evt = t.restrict S .evt)
    {watcher watcher' : Watcher Bytes} {trace trace' : List WatchEvent}
    (hwatcher : watcher' = watcher) (htrace : trace' = trace) :
    ({ s with watcher, trace } : Uplink Bytes).restrict S .evt =
      ({ t with watcher := watcher', trace := trace' } : Uplink Bytes).restrict S .evt := by
  subst hwatcher htrace
  rw [restrict_watcher_evt (s := s), restrict_watcher_evt (s := t), hview]

/-- A class takes its own steps as it would take them in any state that looks the same to it. -/
theorem Move.seen (hs : s.Books S) (ht : t.Books S) (hview : s.restrict S cls = t.restrict S cls)
    (hsees : a.concerns S cls = true) (h : Move S s a s' bumps) :
    ∃ t', Move S t a t' bumps ∧ s'.restrict S cls = t'.restrict S cls := by
  have hsame := sameTo hs.wf.bus ht.wf.bus hview
  -- the message of a pump of the class is one of the class
  have hown : ∀ {i m}, S.pumps cls i = true → m ∈ (s.pumps i).load → m.cls = cls := by
    intro i m hi hm
    have hcls := (hs.placed.pump i m hm).2
    have hi : S.pumpClass i = some cls := by simpa [Setup.pumps] using hi
    exact Option.some.inj (hcls.symm.trans hi)
  have hpushes : ∀ {i m}, s.Pushes a i m → S.pumps cls i = true → t.Pushes a i m := by
    intro i m hpush hi
    have hcls := hown hi (hs.push_event hpush).1
    cases hpush with
    | admitted i now m hpump hverdict =>
      rw [hcls] at hverdict
      exact .admitted i now m ((hsame.pumps i hi).trans hpump)
        (by rw [hcls, (hsame.admitted now).1, hverdict])
    | fail i m hpump hevt => exact .fail i m ((hsame.pumps i hi).trans hpump) hevt
  cases h with
  | publish topic payload =>
    have hnew : ∀ r : Uplink Bytes,
        ({ r with bus := r.bus.publish S.deviceSubscriptions topic payload } :
          Uplink Bytes).restrict S cls =
        { r.restrict S cls with
          bus := ((r.restrict S cls).bus.publish S.deviceSubscriptions topic payload).restrict
            (S.pumps cls) } := by
      intro r
      simp only [restrict, ← Bus.restrict_publish]
    exact ⟨_, .publish topic payload, by rw [hnew, hnew, hview]⟩
  | link up hchange =>
    have hlink : [if up then WatchEvent.linkUp else .linkDown].filter WatchEvent.isLink =
        [if up then .linkUp else .linkDown] := by
      cases up <;> rfl
    have hnew : ∀ r : Uplink Bytes,
        ({ r with
          siteUp := up, trace := r.trace ++ [if up then .linkUp else .linkDown] } :
            Uplink Bytes).restrict S cls =
        { r.restrict S cls with
          siteUp := up
          trace := (r.restrict S cls).trace ++ [if up then .linkUp else .linkDown] } := by
      intro r
      by_cases hevt : cls = .evt <;> simp [restrict, hlink, hevt]
    exact ⟨_, .link up (hsame.siteUp ▸ hchange), by rw [hnew, hnew, hview]⟩
  | refuse i other c bus reason hpump hother hrecv hdecide =>
    obtain ⟨bus', hrecv', hbus⟩ := hsame.recv hsees hrecv
    refine ⟨_, .refuse i other c bus' reason ((hsame.pumps i hsees).trans hpump) hother hrecv'
      hdecide, ?_⟩
    have hnew : ∀ (r : Uplink Bytes) bus,
        ({ r with bus } : Uplink Bytes).restrict S cls =
          { r.restrict S cls with bus := bus.restrict (S.pumps cls) } := fun _ _ => rfl
    rw [hnew s bus, hnew t bus', hview, hbus]
  | hand i other c bus bytes m hpump hother hrecv hdecide hm =>
    obtain ⟨bus', hrecv', hbus⟩ := hsame.recv hsees hrecv
    refine ⟨_, .hand i other c bus' bytes m ((hsame.pumps i hsees).trans hpump) hother hrecv'
      hdecide hm, ?_⟩
    obtain rfl : m.cls = cls := by
      have hi : S.pumpClass i = some cls := by simpa [UplinkAction.concerns] using hsees
      simpa [hm] using hother.symm.trans hi
    have hnew : ∀ (r : Uplink Bytes) bus,
        ({ r.setPump i (.handed m) with bus, handed := r.handed ++ [m] } :
          Uplink Bytes).restrict S m.cls =
        { (r.restrict S m.cls).setPump i (.handed m) with
          bus := bus.restrict (S.pumps m.cls)
          handed := (r.restrict S m.cls).handed ++ [m] } := by
      intro r bus
      simp [restrict, setPump, pumps_update hsees]
    rw [hnew s bus, hnew t bus', hview, hbus]
  | goLive i now m policy hpump hadmits =>
    obtain rfl : m.cls = cls := hown hsees (by simp [hpump])
    obtain ⟨hverdict, hpolicy⟩ := hsame.admitted now
    rw [hadmits] at hverdict hpolicy
    refine ⟨_, .goLive i now m (t.policy.admitVerdict m.cls t.siteUp now).2
      ((hsame.pumps i hsees).trans hpump) (Prod.ext hverdict rfl), ?_⟩
    rw [restrict_setPump hsees, restrict_setPump hsees, restrict_policy policy,
      restrict_policy (t.policy.admitVerdict m.cls t.siteUp now).2, hview, hpolicy]
  | capped i now m policy hpump hadmits =>
    obtain rfl : m.cls = cls := hown hsees (by simp [hpump])
    obtain ⟨hverdict, hpolicy⟩ := hsame.admitted now
    rw [hadmits] at hverdict hpolicy
    refine ⟨_, .capped i now m (t.policy.admitVerdict m.cls t.siteUp now).2
      ((hsame.pumps i hsees).trans hpump) (Prod.ext hverdict rfl), ?_⟩
    rw [restrict_discard rfl, restrict_discard rfl, restrict_setPump hsees, restrict_setPump hsees,
      restrict_policy policy, restrict_policy (t.policy.admitVerdict m.cls t.siteUp now).2, hview,
      hpolicy]
  | disabled i now m hpump hverdict =>
    obtain rfl : m.cls = cls := hown hsees (by simp [hpump])
    refine ⟨_, .disabled i now m ((hsame.pumps i hsees).trans hpump)
      ((hsame.admitted now).1.trans hverdict), ?_⟩
    rw [restrict_discard rfl, restrict_discard rfl, restrict_setPump hsees, restrict_setPump hsees,
      hview]
  | disconnected i now m hpump hverdict =>
    obtain rfl : m.cls = cls := hown hsees (by simp [hpump])
    refine ⟨_, .disconnected i now m ((hsame.pumps i hsees).trans hpump)
      ((hsame.admitted now).1.trans hverdict), ?_⟩
    rw [restrict_discard rfl, restrict_discard rfl, restrict_setPump hsees, restrict_setPump hsees,
      hview]
  | store a i m hpush hroom =>
    have hi : S.pumps cls i = true := hpush.concerns.symm.trans hsees
    obtain ⟨hmem, hevt⟩ := hs.push_event hpush
    obtain rfl : cls = .evt := (hown hi hmem).symm.trans hevt
    have hbuffer := hsame.buffer rfl
    refine ⟨_, .store a i m (hpushes hpush hi) (by rw [hbuffer, hsame.max]; exact hroom), ?_⟩
    rw [restrict_setBuffer_evt, restrict_setBuffer_evt, restrict_setPump hi, restrict_setPump hi,
      hview, hbuffer]
  | evict a i m oldest rest hpush hon hfull hold =>
    have hi : S.pumps cls i = true := hpush.concerns.symm.trans hsees
    obtain ⟨hmem, hevt⟩ := hs.push_event hpush
    obtain rfl : cls = .evt := (hown hi hmem).symm.trans hevt
    have hbuffer := hsame.buffer rfl
    have hcls : oldest.cls = .evt := hs.placed.evt oldest (by simp [Uplink.flow, hold])
    refine ⟨_, .evict a i m oldest rest (hpushes hpush hi) (hsame.max ▸ hon)
      (by rw [hbuffer, hsame.max]; exact hfull) (hbuffer.trans hold), ?_⟩
    rw [restrict_discard hcls, restrict_discard hcls, restrict_setBuffer_evt,
      restrict_setBuffer_evt, restrict_setPump hi, restrict_setPump hi, hview]
  | reject a i m hpush hoff =>
    have hi : S.pumps cls i = true := hpush.concerns.symm.trans hsees
    have hcls := hown hi (hs.push_event hpush).1
    refine ⟨_, .reject a i m (hpushes hpush hi) (hsame.max.trans hoff), ?_⟩
    rw [restrict_discard hcls, restrict_discard hcls, restrict_setPump hi, restrict_setPump hi,
      hview]
  | deliver i m hpump =>
    obtain rfl : m.cls = cls := hown hsees (by simp [hpump])
    refine ⟨_, .deliver i m ((hsame.pumps i hsees).trans hpump), ?_⟩
    have hnew : ∀ r : Uplink Bytes,
        ({ r.setPump i .idle with delivered := r.delivered ++ [m] } :
          Uplink Bytes).restrict S m.cls =
        { (r.restrict S m.cls).setPump i .idle with
          delivered := (r.restrict S m.cls).delivered ++ [m] } := by
      intro r
      simp [restrict, setPump, pumps_update hsees]
    rw [hnew, hnew, hview]
  | lose i m hpump hevt =>
    obtain rfl : m.cls = cls := hown hsees (by simp [hpump])
    refine ⟨_, .lose i m ((hsame.pumps i hsees).trans hpump) hevt, ?_⟩
    rw [restrict_discard rfl, restrict_discard rfl, restrict_setPump hsees, restrict_setPump hsees,
      hview]
  | baseline hphase =>
    obtain rfl : cls = .evt := of_decide_eq_true hsees
    have hwatcher := hsame.watcher rfl
    exact ⟨_, .baseline (hwatcher ▸ hphase),
      restrict_watcher_eq hview (by rw [hwatcher, hsame.siteUp]) (by rw [hsame.trace rfl])⟩
  | rise hphase hup hwas =>
    obtain rfl : cls = .evt := of_decide_eq_true hsees
    have hwatcher := hsame.watcher rfl
    exact ⟨_, .rise (hwatcher ▸ hphase) (hsame.siteUp.trans hup) (hwatcher ▸ hwas),
      restrict_watcher_eq hview rfl (by rw [hsame.trace rfl])⟩
  | steady hphase hup hwas =>
    obtain rfl : cls = .evt := of_decide_eq_true hsees
    have hwatcher := hsame.watcher rfl
    exact ⟨_, .steady (hwatcher ▸ hphase) (hsame.siteUp.trans hup) (hwatcher ▸ hwas),
      restrict_watcher_eq hview rfl (by rw [hsame.trace rfl])⟩
  | down hphase hdown =>
    obtain rfl : cls = .evt := of_decide_eq_true hsees
    exact ⟨_, .down (hsame.watcher rfl ▸ hphase) (hsame.siteUp.trans hdown),
      restrict_watcher_eq hview rfl (by rw [hsame.trace rfl])⟩
  | skip cmd topic rest hphase hencode =>
    obtain rfl : cls = .evt := of_decide_eq_true hsees
    have hwatcher := hsame.watcher rfl
    exact ⟨_, .skip cmd topic rest (hwatcher ▸ hphase) hencode,
      restrict_watcher_eq hview (by rw [hwatcher]) (by rw [hsame.trace rfl])⟩
  | broadcast cmd topic rest bytes hphase hencode =>
    obtain rfl : cls = .evt := of_decide_eq_true hsees
    have hwatcher := hsame.watcher rfl
    exact ⟨_, .broadcast cmd topic rest bytes (hwatcher ▸ hphase) hencode,
      restrict_watcher_eq hview (by rw [hwatcher]) (by rw [hsame.trace rfl])⟩
  | broadcasted outcome rest hphase =>
    obtain rfl : cls = .evt := of_decide_eq_true hsees
    have hwatcher := hsame.watcher rfl
    exact ⟨_, .broadcasted outcome rest (hwatcher ▸ hphase),
      restrict_watcher_eq hview (by rw [hwatcher]) (by rw [hsame.trace rfl])⟩
  | enter hphase =>
    obtain rfl : cls = .evt := of_decide_eq_true hsees
    have hwatcher := hsame.watcher rfl
    exact ⟨_, .enter (hwatcher ▸ hphase),
      restrict_watcher_eq hview (by rw [hwatcher]) (by rw [hsame.trace rfl])⟩
  | count hphase hbuffer =>
    obtain rfl : cls = .evt := of_decide_eq_true hsees
    have hwatcher := hsame.watcher rfl
    exact ⟨_, .count (hwatcher ▸ hphase) (hsame.buffer rfl ▸ hbuffer),
      restrict_watcher_eq hview (by rw [hwatcher]) (by rw [hsame.trace rfl])⟩
  | test hphase hup =>
    obtain rfl : cls = .evt := of_decide_eq_true hsees
    have hwatcher := hsame.watcher rfl
    exact ⟨_, .test (hwatcher ▸ hphase) (hsame.siteUp.trans hup),
      restrict_watcher_eq hview (by rw [hwatcher]) (by rw [hsame.trace rfl])⟩
  | complete hphase =>
    obtain rfl : cls = .evt := of_decide_eq_true hsees
    have hwatcher := hsame.watcher rfl
    exact ⟨_, .complete (by rw [hwatcher, hsame.buffer rfl, hsame.siteUp]; exact hphase),
      restrict_watcher_eq hview (by rw [hwatcher]) (by rw [hsame.trace rfl])⟩
  | pop m rest hphase hbuffer =>
    obtain rfl : cls = .evt := of_decide_eq_true hsees
    have hwatcher := hsame.watcher rfl
    have hview' : (s.setBuffer rest).restrict S .evt = (t.setBuffer rest).restrict S .evt := by
      rw [restrict_setBuffer_evt, restrict_setBuffer_evt, hview]
    exact ⟨_, .pop m rest (hwatcher ▸ hphase) ((hsame.buffer rfl).trans hbuffer),
      restrict_watcher_eq hview' (by simp only [setBuffer, hwatcher])
        (by simp only [setBuffer, hsame.trace rfl])⟩
  | replayed m hphase =>
    obtain rfl : cls = .evt := of_decide_eq_true hsees
    have hwatcher := hsame.watcher rfl
    have hevt : m.cls = .evt := hs.placed.evt m (by simp [Uplink.flow, Watcher.held, hphase])
    have hview' : ({ s with delivered := s.delivered ++ [m] } : Uplink Bytes).restrict S .evt =
        ({ t with delivered := t.delivered ++ [m] } : Uplink Bytes).restrict S .evt := by
      rw [restrict_deliver hevt, restrict_deliver hevt, hview]
    exact ⟨_, .replayed m (hwatcher ▸ hphase),
      restrict_watcher_eq hview' (by rw [hwatcher]) (by rw [hsame.trace rfl])⟩
  | requeue m hphase hroom =>
    obtain rfl : cls = .evt := of_decide_eq_true hsees
    have hwatcher := hsame.watcher rfl
    have hbuffer := hsame.buffer rfl
    have hview' : (s.setBuffer (m :: s.policy.evtBuffer)).restrict S .evt =
        (t.setBuffer (m :: t.policy.evtBuffer)).restrict S .evt := by
      rw [restrict_setBuffer_evt, restrict_setBuffer_evt, hview, hbuffer]
    exact ⟨_, .requeue m (hwatcher ▸ hphase) (by rw [hbuffer, hsame.max]; exact hroom),
      restrict_watcher_eq hview' (by simp only [setBuffer, hwatcher])
        (by simp only [setBuffer, hsame.trace rfl])⟩
  | refuseRequeue m hphase hfull =>
    obtain rfl : cls = .evt := of_decide_eq_true hsees
    have hwatcher := hsame.watcher rfl
    have hevt : m.cls = .evt := hs.placed.evt m (by simp [Uplink.flow, Watcher.held, hphase])
    have hview' : (s.discard m).restrict S .evt = (t.discard m).restrict S .evt := by
      rw [restrict_discard hevt, restrict_discard hevt, hview]
    exact ⟨_, .refuseRequeue m (hwatcher ▸ hphase)
        (by rw [hsame.buffer rfl, hsame.max]; exact hfull),
      restrict_watcher_eq hview' (by simp only [discard, hwatcher])
        (by simp only [discard, hsame.trace rfl])⟩

/-- The rest of the uplink does not influence a class. -/
theorem isolates (S : Setup Bytes ρ) (cls : UnsClass) :
    (system S).Isolates (restrict S cls) (UplinkAction.concerns S cls) where
  unseen s a s' hreach hsees hstep := by
    obtain ⟨⟨s'', bumps⟩, hs, rfl⟩ := Option.map_eq_some_iff.mp hstep
    exact (step_move hs).unseen (books hreach) hsees
  seen s t a s' hs ht hview hsees hstep := by
    obtain ⟨⟨s'', bumps⟩, hs', rfl⟩ := Option.map_eq_some_iff.mp hstep
    obtain ⟨t', hmove, hview'⟩ := (step_move hs').seen (books hs) (books ht) hview hsees
    exact ⟨t', Option.map_eq_some_iff.mpr ⟨_, hmove.step, rfl⟩, hview'⟩

end Uplink

/-- The pumps of the uplink do not influence those of another class.  Take any state that the uplink
tasks reach and any run from there.  Without the steps of the pumps of other classes, and for a
class other than that of events without those of the watcher, it is still a run from that state, in
which the same is published on the device bus and the link goes up and down as before.  It leaves
the class as it was left: its queues and pumps, its slot of the policy, and what of it was received,
handed over, delivered and discarded, and in which order; for the events also the replay buffer and
the watcher.  Hence any two runs that differ only in such steps are the same to the class. -/
theorem class_isolated [Inhabited ρ] (S : Setup Bytes ρ) (cls : UnsClass) {s s' : Uplink Bytes}
    (h : (Uplink.system S).Reachable System.anyStep s) {as : List (UplinkAction Bytes)}
    (hrun : (Uplink.system S).run s as = some s') :
    (∃ t, (Uplink.system S).run s (as.filter (UplinkAction.concerns S cls)) = some t ∧
      s'.restrict S cls = t.restrict S cls) ∧
    ∀ bs t, (Uplink.system S).run s bs = some t →
      as.filter (UplinkAction.concerns S cls) = bs.filter (UplinkAction.concerns S cls) →
        s'.restrict S cls = t.restrict S cls :=
  ⟨(Uplink.isolates S cls).run_filter h h rfl hrun,
    fun _ _ ht hsame => (Uplink.isolates S cls).view_eq h hrun ht hsame⟩

/-- An event fails to be published and is buffered, while a `state` message is relayed. -/
def busyRun : List (UplinkAction (Message Unit)) :=
  [.publish "ecv1/gw-01/adapter/evt/alarm" (.sample none),
    .publish "ecv1/gw-01/adapter/state" (.sample none), .recv 5, .relayUp 5 0, .recv 1,
    .published 5 .failed, .watch, .relayUp 1 0, .watch, .published 1 .ok]

/-- The class `state` takes the same course in the sample run as when its pump runs alone. -/
theorem class_isolated_gw01 : ∃ s t : Uplink (Message Unit),
    (Uplink.system Setup.gw01).run (.start .gw01 true) busyRun = some s ∧
    s.delivered.length = 1 ∧ s.policy.evtBuffer.length = 1 ∧
    (Uplink.system Setup.gw01).run (.start .gw01 true)
      (busyRun.filter (UplinkAction.concerns .gw01 .state)) = some t ∧
    t.delivered.length = 1 ∧ t.policy.evtBuffer.length = 0 ∧
    s.restrict .gw01 .state = t.restrict .gw01 .state := by
  have hbusy : (((Uplink.system Setup.gw01).run (.start .gw01 true) busyRun).map fun s =>
      (s.delivered.length, s.policy.evtBuffer.length)) = some (1, 1) := by decide +kernel
  have halone : (((Uplink.system Setup.gw01).run (.start .gw01 true)
      (busyRun.filter (UplinkAction.concerns .gw01 .state))).map fun s =>
        (s.delivered.length, s.policy.evtBuffer.length)) = some (1, 0) := by decide +kernel
  obtain ⟨s, hs, hobs⟩ := Option.map_eq_some_iff.mp hbusy
  obtain ⟨t, ht, hobs'⟩ := Option.map_eq_some_iff.mp halone
  refine ⟨s, t, hs, (Prod.mk.inj hobs).1, (Prod.mk.inj hobs).2, ht, (Prod.mk.inj hobs').1,
    (Prod.mk.inj hobs').2, ?_⟩
  exact (class_isolated Setup.gw01 .state (.init ⟨true, rfl⟩) hs).2 _ t ht (by simp)

end UnsBridge
