import Mathlib.Logic.Function.Basic
import UnsBridge.Policy
import UnsBridge.Relay

/-!
# The broker connections and the subscriptions of the relay

What the relay relies on from the provider of a connection: a publish on the broker puts one copy
into the queue of every subscription whose filter matches its topic, unless that queue is full, and
the pump of a subscription receives the copies of its queue one by one.  Publishes are numbered, so
that the copies of one publish can be told from those of another one with the same content.

`Bus.Sound` collects what holds of every bus: each subscription receives the publishes that its
filter matches, at most once each and in publish order.  `Setup` is what `RelayIo::start` is given,
and the subscriptions it makes.
-/

namespace UnsBridge

open TopicFilter

/-- How a publish ends for the caller; a failed publish delivers nothing. -/
inductive Outcome where
  | ok
  | failed
  deriving DecidableEq, Repr

/-- How a subscribe or an unsubscribe ends for the caller; a failed one may have taken effect at the
broker all the same. -/
inductive SubOutcome where
  | ok
  | failed (effect : Bool)
  deriving DecidableEq, Repr

/-- Whether a subscribe or an unsubscribe took effect. -/
def SubOutcome.effect : SubOutcome → Bool
  | .ok => true
  | .failed effect => effect

/-- A subscription of the relay: its filter and the bound of its queue. -/
structure Subscription where
  filter : String
  depth : ℕ

/-- The copy of a publish in a subscription. -/
structure Copy (Bytes : Type) where
  publish : ℕ
  subscription : ℕ
  topic : String
  payload : Bytes

/-- A broker connection: everything published on the broker, the queues of the subscriptions, and
everything that the pumps have received. -/
structure Bus (Bytes : Type) where
  published : List (String × Bytes)
  queues : ℕ → List (Copy Bytes)
  received : List (Copy Bytes)

namespace Bus

variable {Bytes : Type}

/-- A connection on which nothing has been published. -/
def start : Bus Bytes where
  published := []
  queues _ := []
  received := []

/-- Whether a subscription with the given queue takes a copy of a publish on a topic. -/
def accepts (s : Subscription) (queue : List (Copy Bytes)) (topic : String) : Bool :=
  topicMatches s.filter topic && queue.length < max s.depth 1

/-- A publish on the broker. -/
def publish (subs : List Subscription) (b : Bus Bytes) (topic : String) (payload : Bytes) :
    Bus Bytes where
  published := b.published ++ [(topic, payload)]
  queues i :=
    match subs[i]? with
    | some s =>
      if accepts s (b.queues i) topic then
        b.queues i ++ [{ publish := b.published.length, subscription := i, topic, payload }]
      else b.queues i
    | none => b.queues i
  received := b.received

/-- The pump of a subscription receives the front of its queue. -/
def recv (b : Bus Bytes) (i : ℕ) : Option (Copy Bytes × Bus Bytes) :=
  match b.queues i with
  | [] => none
  | c :: rest => some (c, { b with
      queues := Function.update b.queues i rest
      received := b.received ++ [c] })

/-- All copies that a subscription was given: those its pump has received, and its queue. -/
def log (b : Bus Bytes) (i : ℕ) : List (Copy Bytes) :=
  b.received.filter (fun c => c.subscription = i) ++ b.queues i

/-- Every copy in a subscription is a copy of a publish that the filter matches, and the copies of
a subscription are in publish order. -/
structure Sound (subs : List Subscription) (b : Bus Bytes) : Prop where
  faithful : ∀ i, ∀ c ∈ b.log i, c.subscription = i ∧
    b.published[c.publish]? = some (c.topic, c.payload) ∧
    ∃ s, subs[i]? = some s ∧ topicMatches s.filter c.topic = true
  ordered : ∀ i, ((b.log i).map Copy.publish).Pairwise (· < ·)

variable {subs : List Subscription} {b : Bus Bytes}

/-- A new connection is sound. -/
theorem Sound.start (subs : List Subscription) : Sound subs (start : Bus Bytes) where
  faithful i c hc := by simp [log, Bus.start] at hc
  ordered i := by simp [log, Bus.start]

/-- What a publish adds to a subscription: nothing, or its copy. -/
theorem log_publish (subs : List Subscription) (b : Bus Bytes) (topic : String) (payload : Bytes)
    (i : ℕ) :
    (b.publish subs topic payload).log i = b.log i ∨
      (∃ s, subs[i]? = some s ∧ topicMatches s.filter topic = true) ∧
        (b.publish subs topic payload).log i = b.log i ++
          [{ publish := b.published.length, subscription := i, topic, payload }] := by
  unfold log publish
  cases hs : subs[i]? with
  | none => exact Or.inl (by simp [hs])
  | some s =>
    by_cases hacc : accepts s (b.queues i) topic = true
    · refine Or.inr ⟨⟨s, rfl, ?_⟩, by simp [hs, hacc]⟩
      exact (Bool.and_eq_true_iff.mp hacc).1
    · exact Or.inl (by simp [hs, hacc])

/-- A publish keeps a connection sound. -/
theorem Sound.publish (h : Sound subs b) (topic : String) (payload : Bytes) :
    Sound subs (b.publish subs topic payload) := by
  have hold : ∀ i, ∀ c ∈ b.log i, c.subscription = i ∧
      (b.publish subs topic payload).published[c.publish]? = some (c.topic, c.payload) ∧
      ∃ s, subs[i]? = some s ∧ topicMatches s.filter c.topic = true := by
    intro i c hc
    obtain ⟨hsub, hpub, hmatch⟩ := h.faithful i c hc
    exact ⟨hsub, by simp [Bus.publish, List.getElem?_append_left
      (List.getElem?_eq_some_iff.mp hpub).1, hpub], hmatch⟩
  constructor
  · intro i c hc
    rcases log_publish subs b topic payload i with hlog | ⟨hmatch, hlog⟩
    · exact hold i c (hlog ▸ hc)
    · rw [hlog] at hc
      rcases List.mem_append.mp hc with hc | hc
      · exact hold i c hc
      · rw [List.mem_singleton.mp hc]
        exact ⟨rfl, by simp [Bus.publish], hmatch⟩
  · intro i
    rcases log_publish subs b topic payload i with hlog | ⟨-, hlog⟩
    · exact hlog ▸ h.ordered i
    · rw [hlog, List.map_append, List.pairwise_append]
      refine ⟨h.ordered i, List.pairwise_singleton _ _, ?_⟩
      intro p hp q hq
      obtain ⟨c, hc, rfl⟩ := List.mem_map.mp hp
      rw [List.map_singleton, List.mem_singleton] at hq
      exact hq ▸ (List.getElem?_eq_some_iff.mp (h.faithful i c hc).2.1).1

/-- What a pump receives is the front of its queue, which it leaves for the received copies. -/
theorem recv_eq_some {b' : Bus Bytes} {i : ℕ} {c : Copy Bytes} (h : b.recv i = some (c, b')) :
    b'.published = b.published ∧ b'.received = b.received ++ [c] ∧
      ∃ rest, b.queues i = c :: rest ∧ b'.queues = Function.update b.queues i rest := by
  unfold recv at h
  cases hq : b.queues i with
  | nil => simp [hq] at h
  | cons c' rest =>
    simp only [hq, Option.some.injEq, Prod.mk.injEq] at h
    obtain ⟨rfl, rfl⟩ := h
    exact ⟨rfl, rfl, rest, rfl, rfl⟩

/-- Receiving changes no subscription's copies. -/
theorem Sound.log_recv (h : Sound subs b) {b' : Bus Bytes} {i : ℕ} {c : Copy Bytes}
    (hrecv : b.recv i = some (c, b')) (j : ℕ) : b'.log j = b.log j := by
  obtain ⟨-, hreceived, rest, hqueue, hqueues⟩ := recv_eq_some hrecv
  have hsub : c.subscription = i := (h.faithful i c (by simp [log, hqueue])).1
  unfold log
  rw [hreceived, hqueues, List.filter_append]
  by_cases hij : j = i
  · subst hij
    simp [hsub, hqueue]
  · simp [hsub, Ne.symm hij, hij]

/-- Receiving keeps a connection sound. -/
theorem Sound.recv (h : Sound subs b) {b' : Bus Bytes} {i : ℕ} {c : Copy Bytes}
    (hrecv : b.recv i = some (c, b')) : Sound subs b' := by
  have hpub := (recv_eq_some hrecv).1
  constructor
  · intro j c' hc'
    rw [hpub]
    exact h.faithful j c' (h.log_recv hrecv j ▸ hc')
  · exact fun j => h.log_recv hrecv j ▸ h.ordered j

/-- A received copy is among the copies of its subscription. -/
theorem mem_log_of_received {c : Copy Bytes} (hc : c ∈ b.received) : c ∈ b.log c.subscription :=
  List.mem_append_left _ (List.mem_filter.mpr ⟨hc, by simp⟩)

/-- The pump of a subscription has received every publish at most once, and in publish order. -/
theorem Sound.received_ordered (h : Sound subs b) (i : ℕ) :
    ((b.received.filter fun c => c.subscription = i).map Copy.publish).Pairwise (· < ·) :=
  (h.ordered i).sublist ((List.sublist_append_left _ _).map _)

end Bus

/-! ### What the relay is started with -/

/-- The arguments of `RelayIo::start`, and two functions of the library: the codec, and the envelope
that the message builder makes for a notification command (its fresh identifiers are not told
apart). -/
structure Setup (Bytes ρ : Type) where
  engine : RelayEngine
  engine_new : ∃ device maxHops appEnabled, RelayEngine.new device maxHops appEnabled = some engine
  codec : Codec Bytes ρ
  notification : String → Message ρ
  queue : QueueConfig := {}
  reply : ReplyConfig := {}
  uplink : UplinkConfig := {}

namespace Setup

variable {Bytes ρ : Type} (S : Setup Bytes ρ)

/-- The same bridge with another `uplink` block. -/
def withUplink (uplink : UplinkConfig) : Setup Bytes ρ := { S with uplink }

/-- The subscriptions on the device bus, one pump each; the queue of `data` is the deep one. -/
def deviceSubscriptions : List Subscription :=
  S.engine.uplinkSubscriptions.map fun (cls, filter) =>
    { filter, depth := if cls = .data then S.queue.data else S.queue.defaultDepth }

/-- The class that the pump of a device subscription carries along. -/
def pumpClass (i : ℕ) : Option UnsClass := S.engine.uplinkSubscriptions[i]?.map Prod.fst

/-- The subscriptions on the site broker, one pump each. -/
def siteSubscriptions : List Subscription :=
  S.engine.downlinkFilters.map fun filter => { filter, depth := S.queue.defaultDepth }

variable {S} {i : ℕ} {cls : UnsClass}

/-- The class of a pump is the class of its filter in the table of the engine. -/
theorem exists_filter_of_pumpClass (h : S.pumpClass i = some cls) :
    ∃ filter s, (cls, filter) ∈ S.engine.uplinkFilters ∧ S.deviceSubscriptions[i]? = some s ∧
      s.filter = filter := by
  obtain ⟨⟨cls', filter⟩, hentry, rfl⟩ := Option.map_eq_some_iff.mp h
  let depth := if cls' = .data then S.queue.data else S.queue.defaultDepth
  exact ⟨filter, { filter, depth }, List.mem_of_getElem? hentry,
    by simp [deviceSubscriptions, hentry, depth], rfl⟩

/-- The filters of the device subscriptions are those of the engine. -/
theorem map_filter_deviceSubscriptions :
    S.deviceSubscriptions.map Subscription.filter = S.engine.uplinkFilters.map Prod.snd := by
  simp [deviceSubscriptions, RelayEngine.uplinkSubscriptions]

/-- The filters of the site subscriptions are those of the engine. -/
theorem map_filter_siteSubscriptions :
    S.siteSubscriptions.map Subscription.filter = S.engine.downlinkFilters := by
  simp [siteSubscriptions, Function.comp_def]

/-- Pumps belong to subscriptions. -/
theorem lt_of_pumpClass (h : S.pumpClass i = some cls) : i < S.deviceSubscriptions.length := by
  obtain ⟨p, hentry, -⟩ := Option.map_eq_some_iff.mp h
  rw [deviceSubscriptions, List.length_map]
  exact (List.getElem?_eq_some_iff.mp hentry).1

/-- The class of a pump is governed by the uplink policy. -/
theorem classIndex_isSome_of_pumpClass (h : S.pumpClass i = some cls) :
    (classIndex cls).isSome = true := by
  obtain ⟨device, maxHops, appEnabled, hnew⟩ := S.engine_new
  obtain ⟨filter, -, hentry, -⟩ := exists_filter_of_pumpClass h
  have hmem := ((RelayEngine.mem_uplinkFilters hnew).mp hentry).1
  have hne : cls ≠ .cmd := fun heq => RelayEngine.cmd_notMem_uplinkClasses _ (heq ▸ hmem)
  cases cls <;> first | rfl | exact absurd rfl hne

/-- The relay of device `gw-01` with the default configuration, over the plain codec. -/
def gw01 : Setup (Message Unit) Unit where
  engine := .gw01
  engine_new := ⟨_, _, _, RelayEngine.new_gw01⟩
  codec := .plain Unit
  notification _ := .sample none

end Setup

end UnsBridge
