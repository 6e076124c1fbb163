import UnsBridge.Io.Bus
import UnsBridge.Io.Counters
import UnsBridge.Lib.Transition
import UnsBridge.Reply

/-!
# The downlink tasks

The site-to-device half of the relay as a transition system: one pump for each downlink
subscription, the sweep task of the correlation map, and one pump for each reply topic that the
bridge minted. They share the correlation map and the subscriptions on the device bus; a section
under the lock of the map is one step, and a broker call is a step of its own, whose outcome the
environment chooses.

A pump receives a command, decides on it and runs it through the reply proxy: the reply topic is
minted and recorded, an evicted one unsubscribed, the minted one subscribed, and the map checked
again before the command is published.  A reply pump takes the first message on its topic, resolves
it through the map, publishes it on the site and unsubscribes its topic.

The log and the number of abandoned entries record what happened; no task reads them.
-/

namespace UnsBridge

open Transition

/-- A command on its way down: the copy that was received, and the bytes to be published for it. -/
structure Command (Bytes : Type) where
  copy : Copy Bytes
  bytes : Bytes

/-- Where a downlink pump stands. -/
inductive DownlinkPhase (Bytes : Type) where
  /-- Awaiting the next command. -/
  | idle
  /-- `decide` forwarded the command, and the proxy is about to lock the map. -/
  | forwarded (m : Command Bytes)
  /-- The evicted topic is being unsubscribed. -/
  | expiring (oldest : String) (m : Command Bytes) (bridgeTopic : String)
  /-- The minted topic is being subscribed. -/
  | subscribing (m : Command Bytes) (bridgeTopic : String)
  /-- The minted topic is subscribed, and the map about to be checked. -/
  | checking (m : Command Bytes) (bridgeTopic : String) (subscription : ℕ)
  /-- The minted topic is being unsubscribed, its entry having gone. -/
  | dropping (m : Command Bytes) (bridgeTopic : String)
  /-- The command is being published on the device bus. -/
  | publishing (m : Command Bytes)
  /-- The task has panicked. -/
  | dead

/-- Where the pump of one reply topic stands. -/
inductive ReplyPhase (Bytes : Type) where
  /-- Not spawned. -/
  | absent
  /-- Awaiting the first message of its subscription. -/
  | waiting (bridgeTopic : String) (subscription : ℕ)
  /-- The reply has arrived, and the map is about to be asked. -/
  | received (bridgeTopic : String) (payload : Bytes)
  /-- The reply is being published on the site. -/
  | publishing (bridgeTopic : String)
  /-- The topic is being unsubscribed. -/
  | settling (bridgeTopic : String)
  /-- The task has ended. -/
  | done

/-- What happened on the downlink. -/
inductive DownlinkEvent (Bytes : Type) where
  /-- A reply topic was minted and recorded for a command. -/
  | recorded (c : Copy Bytes) (bridgeTopic : String)
  /-- The subscribe of a reply topic succeeded. -/
  | subscribed (bridgeTopic : String)
  /-- A command was published on the device bus, on its own topic. -/
  | commanded (c : Copy Bytes) (bytes : Bytes)
  /-- A reply pump received a message. -/
  | arrived (bridgeTopic : String) (payload : Bytes)
  /-- A reply was resolved through the map. -/
  | taken (bridgeTopic : String)
  /-- A reply was published on the site. -/
  | replied (bridgeTopic siteTopic : String) (bytes : Bytes)

/-- The state of the downlink tasks.  The reply subscriptions on the device bus carry handles, and
each has an inbox for one message. -/
structure Downlink (Bytes : Type) where
  bus : Bus Bytes
  correlator : ReplyCorrelator
  pumps : ℕ → DownlinkPhase Bytes
  /-- The expired topics that the sweep still has to unsubscribe; the first one is in flight. -/
  sweeper : List String
  subscriptions : List (ℕ × String)
  nextSubscription : ℕ
  inbox : ℕ → List Bytes
  replyPumps : ℕ → ReplyPhase Bytes
  nextReplyPump : ℕ
  log : List (DownlinkEvent Bytes)
  abandoned : ℕ

/-- A step of the downlink tasks or of their environment. -/
inductive DownlinkAction (Bytes : Type) where
  /-- Someone publishes on the site broker. -/
  | publish (topic : String) (payload : Bytes)
  /-- Pump `i` receives a command and decides on it. -/
  | recv (i : ℕ)
  /-- The locked section of `rewrite_downlink` in pump `i`, with the topic that is minted. -/
  | rewriteDownlink (i : ℕ) (mint : String) (now : Instant)
  /-- The unsubscribe of the evicted topic returns. -/
  | expired (i : ℕ) (outcome : SubOutcome)
  /-- The subscribe of the minted topic returns. -/
  | subscribed (i : ℕ) (outcome : SubOutcome)
  /-- The map is checked again. -/
  | check (i : ℕ)
  /-- The unsubscribe of the minted topic returns. -/
  | dropped (i : ℕ) (outcome : SubOutcome)
  /-- The device-bus publish of pump `i` returns. -/
  | published (i : ℕ) (outcome : Outcome)
  /-- The sweep takes the overdue entries. -/
  | sweep (now : Instant)
  /-- An unsubscribe of the sweep returns. -/
  | swept (outcome : SubOutcome)
  /-- Someone publishes on a reply topic on the device bus. -/
  | reply (bridgeTopic : String) (payload : Bytes)
  /-- Reply pump `k` receives a message. -/
  | replyRecv (k : ℕ)
  /-- Reply pump `k` finds its subscription closed. -/
  | replyClosed (k : ℕ)
  /-- `handle_reply` in reply pump `k`, up to its site publish or its unsubscribe. -/
  | handleReply (k : ℕ)
  /-- The site publish of reply pump `k` returns. -/
  | replyPublished (k : ℕ) (outcome : Outcome)
  /-- The unsubscribe of reply pump `k` returns. -/
  | replySettled (k : ℕ) (outcome : SubOutcome)

namespace Downlink

variable {Bytes ρ : Type}

/-- The state when `RelayIo::start` has subscribed and spawned the tasks. -/
def start (S : Setup Bytes ρ) : Downlink Bytes where
  bus := .start
  correlator := .new S.reply.ttl S.reply.maxPending
  pumps _ := .idle
  sweeper := []
  subscriptions := []
  nextSubscription := 0
  inbox _ := []
  replyPumps _ := .absent
  nextReplyPump := 0
  log := []
  abandoned := 0

/-- The state after pump `i` has gone on. -/
def setPump (s : Downlink Bytes) (i : ℕ) (phase : DownlinkPhase Bytes) : Downlink Bytes :=
  { s with pumps := Function.update s.pumps i phase }

/-- The state after reply pump `k` has gone on. -/
def setReplyPump (s : Downlink Bytes) (k : ℕ) (phase : ReplyPhase Bytes) : Downlink Bytes :=
  { s with replyPumps := Function.update s.replyPumps k phase }

/-- The state with one more event in the log. -/
def record (s : Downlink Bytes) (event : DownlinkEvent Bytes) : Downlink Bytes :=
  { s with log := s.log ++ [event] }

/-- The state after an unsubscribe of a reply topic. -/
def unsubscribe (s : Downlink Bytes) (topic : String) (outcome : SubOutcome) : Downlink Bytes :=
  { s with subscriptions :=
      if outcome.effect then s.subscriptions.filter fun p => p.2 ≠ topic else s.subscriptions }

/-- Pump `i` publishes its command on the device bus. -/
def publishCommand (s : Downlink Bytes) (i : ℕ) (m : Command Bytes) : Downlink Bytes :=
  (s.setPump i (.publishing m)).record (.commanded m.copy m.bytes)

/-- A step of `pump` in its downlink role, up to the call of `rewrite_downlink`. -/
def recv [Inhabited ρ] (S : Setup Bytes ρ) (s : Downlink Bytes) (i : ℕ) :
    Option (Downlink Bytes × List Bump) :=
  match s.pumps i, s.bus.recv i with
  | .idle, some (c, bus) =>
    match S.engine.decide S.codec .downlink c.topic c.payload with
    | .forward bytes => some ({ s.setPump i (.forwarded { copy := c, bytes }) with bus }, [])
    | .drop reason => some ({ s with bus }, [.drop reason])
  | _, _ => none

/-- `ReplyProxy::rewrite_downlink`, its locked section and the start of `expire`. -/
def rewriteDownlink (S : Setup Bytes ρ) (s : Downlink Bytes) (i : ℕ) (mint : String)
    (now : Instant) : Option (Downlink Bytes × List Bump) :=
  match s.pumps i with
  | .forwarded m =>
    let (action, correlator) := s.correlator.rewriteDownlink S.codec m.bytes mint now
    let s := { s with correlator }
    match action with
    | none => some (s.setPump i .dead, [])
    | some .passthrough => some (s.publishCommand i m, [])
    | some (.drop reason) => some (s.setPump i .idle, [.drop reason])
    | some (.rewritten bytes bridgeTopic evicted) =>
      let s := s.record (.recorded m.copy bridgeTopic)
      match evicted with
      | some oldest =>
        some (s.setPump i (.expiring oldest { m with bytes } bridgeTopic), [.replyExpired])
      | none => some (s.setPump i (.subscribing { m with bytes } bridgeTopic), [])
  | _ => none

/-- The end of `expire` for an evicted topic. -/
def expired (s : Downlink Bytes) (i : ℕ) (outcome : SubOutcome) :
    Option (Downlink Bytes × List Bump) :=
  match s.pumps i with
  | .expiring oldest m bridgeTopic =>
    some ((s.unsubscribe oldest outcome).setPump i (.subscribing m bridgeTopic), [])
  | _ => none

/-- The return of the subscribe of a minted topic: on failure the entry is abandoned. -/
def subscribed (s : Downlink Bytes) (i : ℕ) (outcome : SubOutcome) :
    Option (Downlink Bytes × List Bump) :=
  match s.pumps i with
  | .subscribing m bridgeTopic =>
    let s' := { s with
      nextSubscription := s.nextSubscription + 1
      subscriptions :=
        if outcome.effect then s.subscriptions ++ [(s.nextSubscription, bridgeTopic)]
        else s.subscriptions }
    match outcome with
    | .ok =>
      some ((s'.setPump i (.checking m bridgeTopic s.nextSubscription)).record
        (.subscribed bridgeTopic), [])
    | .failed _ =>
      let correlator := s.correlator.abandon bridgeTopic
      some ({ s'.setPump i .idle with
        correlator
        abandoned := s.abandoned + (s.correlator.pending.length - correlator.pending.length) },
        [.publishFailed])
  | _ => none

/-- The check of the map after the subscribe: the reply pump is spawned if the entry still lives. -/
def check (s : Downlink Bytes) (i : ℕ) : Option (Downlink Bytes × List Bump) :=
  match s.pumps i with
  | .checking m bridgeTopic subscription =>
    if s.correlator.contains bridgeTopic then
      let s := s.setReplyPump s.nextReplyPump (.waiting bridgeTopic subscription)
      some ({ s with nextReplyPump := s.nextReplyPump + 1 }.publishCommand i m, [])
    else some (s.setPump i (.dropping m bridgeTopic), [])
  | _ => none

/-- The return of the unsubscribe of a minted topic whose entry had gone. -/
def dropped (s : Downlink Bytes) (i : ℕ) (outcome : SubOutcome) :
    Option (Downlink Bytes × List Bump) :=
  match s.pumps i with
  | .dropping m bridgeTopic => some ((s.unsubscribe bridgeTopic outcome).publishCommand i m, [])
  | _ => none

/-- The return of the device-bus publish of a pump. -/
def published (s : Downlink Bytes) (i : ℕ) (outcome : Outcome) :
    Option (Downlink Bytes × List Bump) :=
  match s.pumps i with
  | .publishing _ =>
    match outcome with
    | .ok => some (s.setPump i .idle, [.downlinked])
    | .failed => some (s.setPump i .idle, [.publishFailed])
  | _ => none

/-- The count of an expiry, made when the unsubscribe of its topic starts. -/
def countExpiry (topics : List String) : List Bump := (topics.take 1).map fun _ => .replyExpired

/-- The sweep task takes the overdue entries and starts to expire them. -/
def sweep (s : Downlink Bytes) (now : Instant) : Option (Downlink Bytes × List Bump) :=
  match s.sweeper with
  | [] =>
    let (topics, correlator) := s.correlator.sweep now
    some ({ s with correlator, sweeper := topics }, countExpiry topics)
  | _ :: _ => none

/-- The return of an unsubscribe of the sweep task, which goes on with the next topic. -/
def swept (s : Downlink Bytes) (outcome : SubOutcome) : Option (Downlink Bytes × List Bump) :=
  match s.sweeper with
  | [] => none
  | topic :: rest => some ({ s.unsubscribe topic outcome with sweeper := rest }, countExpiry rest)

/-- A publish on a reply topic: every subscription of it whose inbox is empty gets a copy. -/
def reply (s : Downlink Bytes) (topic : String) (payload : Bytes) : Downlink Bytes :=
  { s with inbox := fun k =>
      if (k, topic) ∈ s.subscriptions ∧ (s.inbox k).isEmpty then [payload] else s.inbox k }

/-- A reply pump receives the first message of its subscription. -/
def replyRecv (s : Downlink Bytes) (k : ℕ) : Option (Downlink Bytes × List Bump) :=
  match s.replyPumps k with
  | .waiting bridgeTopic subscription =>
    match s.inbox subscription with
    | [] => none
    | payload :: rest =>
      let s' := { s with inbox := Function.update s.inbox subscription rest }
      some ((s'.setReplyPump k (.received bridgeTopic payload)).record
        (.arrived bridgeTopic payload), [])
  | _ => none

/-- A reply pump ends when its subscription is closed and its inbox empty. -/
def replyClosed (s : Downlink Bytes) (k : ℕ) : Option (Downlink Bytes × List Bump) :=
  match s.replyPumps k with
  | .waiting bridgeTopic subscription =>
    if (s.inbox subscription).isEmpty ∧ (subscription, bridgeTopic) ∉ s.subscriptions then
      some (s.setReplyPump k .done, [])
    else none
  | _ => none

/-- `ReplyProxy::handle_reply`, up to its first await. -/
def handleReply [Inhabited ρ] (S : Setup Bytes ρ) (s : Downlink Bytes) (k : ℕ) :
    Option (Downlink Bytes × List Bump) :=
  match s.replyPumps k with
  | .received bridgeTopic payload =>
    match s.correlator.take bridgeTopic with
    | (none, _) => some (s.setReplyPump k .done, [.replyStray])
    | (some siteTopic, correlator) =>
      let s := { s with correlator }.record (.taken bridgeTopic)
      match prepareReply S.engine S.codec payload with
      | .forward bytes =>
        some ((s.setReplyPump k (.publishing bridgeTopic)).record
          (.replied bridgeTopic siteTopic bytes), [])
      | .drop reason => some (s.setReplyPump k (.settling bridgeTopic), [.drop reason])
  | _ => none

/-- `ReplyProxy::handle_reply`, after its site publish. -/
def replyPublished (s : Downlink Bytes) (k : ℕ) (outcome : Outcome) :
    Option (Downlink Bytes × List Bump) :=
  match s.replyPumps k with
  | .publishing bridgeTopic =>
    match outcome with
    | .ok => some (s.setReplyPump k (.settling bridgeTopic), [.replyRelayed])
    | .failed => some (s.setReplyPump k (.settling bridgeTopic), [.publishFailed])
  | _ => none

/-- The end of `ReplyProxy::handle_reply`. -/
def replySettled (s : Downlink Bytes) (k : ℕ) (outcome : SubOutcome) :
    Option (Downlink Bytes × List Bump) :=
  match s.replyPumps k with
  | .settling bridgeTopic => some ((s.unsubscribe bridgeTopic outcome).setReplyPump k .done, [])
  | _ => none

/-- One step, with the counters it bumps. -/
def step [Inhabited ρ] (S : Setup Bytes ρ) (s : Downlink Bytes) :
    DownlinkAction Bytes → Option (Downlink Bytes × List Bump)
  | .publish topic payload =>
    some ({ s with bus := s.bus.publish S.siteSubscriptions topic payload }, [])
  | .recv i => s.recv S i
  | .rewriteDownlink i mint now => s.rewriteDownlink S i mint now
  | .expired i outcome => s.expired i outcome
  | .subscribed i outcome => s.subscribed i outcome
  | .check i => s.check i
  | .dropped i outcome => s.dropped i outcome
  | .published i outcome => s.published i outcome
  | .sweep now => s.sweep now
  | .swept outcome => s.swept outcome
  | .reply bridgeTopic payload => some (s.reply bridgeTopic payload, [])
  | .replyRecv k => s.replyRecv k
  | .replyClosed k => s.replyClosed k
  | .handleReply k => s.handleReply S k
  | .replyPublished k outcome => s.replyPublished k outcome
  | .replySettled k outcome => s.replySettled k outcome

/-- The downlink tasks as a transition system. -/
def system [Inhabited ρ] (S : Setup Bytes ρ) :
    System (Downlink Bytes) (DownlinkAction Bytes) where
  init s := s = start S
  step s a := (s.step S a).map Prod.fst

end Downlink

end UnsBridge
