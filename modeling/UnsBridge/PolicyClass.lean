import UnsBridge.ClassLocation
import UnsBridge.Io.RelayIo

/-!
# The class under which a message is policed

The pump of a subscription hands its messages to `relay_up` under the class of its filter, and the
policy, the buffer and the counters see that class only.  It is the class of the message's own topic
unless another class of the uplink stands at level three of the topic,
`policed_under_own_class_iff`: then the pump of an instance-scope filter applies the policy of the
class at level four, while `decide` has let the message pass for the class at level three.
-/

namespace UnsBridge

open TopicFilter Transition

variable {Bytes ρ : Type} [Inhabited ρ] {S : Setup Bytes ρ}

/-- A message that was handed over is policed under the class of its topic, unless another class
stands before the class of its pump. -/
theorem Uplink.Books.handed_class_iff (hc : S.codec.Lawful) {s : Uplink Bytes} (h : s.Books S)
    {m : Forwarded Bytes} (hm : m ∈ s.handed) :
    RelayEngine.locateClass m.topic = some m.cls ↔
      ¬ S.engine.OtherClassAtLevelThree m.cls m.topic := by
  obtain ⟨device, maxHops, appEnabled, hnew⟩ := S.engine_new
  obtain ⟨c, hreceived, hfrom⟩ := h.placed.origin m hm
  obtain ⟨filter, sub, hentry, hsub, rfl⟩ := Setup.exists_filter_of_pumpClass hfrom.pumpClass
  obtain ⟨hc', -, sub', hsub', hmatch⟩ :=
    h.wf.bus.faithful c.subscription c (Bus.mem_log_of_received hreceived)
  rw [hfrom.subscription, hsub, Option.some.injEq] at hsub'
  subst hsub'
  have hforward := hfrom.decided
  rw [hfrom.topic] at hmatch hforward
  have hrel := ((RelayEngine.exists_decide_forward_iff hc).mp ⟨_, hforward⟩).2
  have hiff : (∀ bytes, S.engine.decide S.codec .uplink m.topic c.payload = .forward bytes →
      RelayEngine.locateClass m.topic = some m.cls) ↔ _ :=
    RelayEngine.class_of_forward_iff hc hnew hentry hmatch
  constructor
  · intro hown hother
    exact hiff.mp (fun _ _ => hown) ⟨hother, hrel⟩
  · intro hother
    exact hiff.mpr (fun hboth => hother hboth.1) _ hforward

/-- A message is policed under the class of its own topic exactly where no other class of the uplink
stands at level three.  For the filters of the engine: where `decide` forwards a payload on a topic
that a filter matches, the located class is the class of the filter, exactly unless such a class
stands there and the payload is relayable.  In every run: a message that a pump has handed to
`relay_up` carries the class of its topic exactly unless such a class stands there, and where none
does, the message is only published on the site broker if its own class is enabled. -/
theorem policed_under_own_class_iff (S : Setup Bytes ρ) (hc : S.codec.Lawful) :
    (∀ cls filter topic payload, (cls, filter) ∈ S.engine.uplinkSubscriptions →
      topicMatches filter topic = true →
        ((∀ bytes, S.engine.decide S.codec .uplink topic payload = .forward bytes →
            RelayEngine.locateClass topic = some cls) ↔
          ¬ (S.engine.OtherClassAtLevelThree cls topic ∧
            S.engine.Relayable S.codec payload))) ∧
    ∀ s, (RelayIo.system S).Reachable System.anyStep s →
      (∀ m ∈ s.up.handed, RelayEngine.locateClass m.topic = some m.cls ↔
        ¬ S.engine.OtherClassAtLevelThree m.cls m.topic) ∧
      ∀ m, s.up.Sent m → ¬ S.engine.OtherClassAtLevelThree m.cls m.topic →
        ∃ own, RelayEngine.locateClass m.topic = some own ∧ S.policy.classEnabled own = true := by
  constructor
  · intro cls filter topic payload hentry hmatch
    obtain ⟨device, maxHops, appEnabled, hnew⟩ := S.engine_new
    exact RelayEngine.class_of_forward_iff hc hnew hentry hmatch
  · intro s hs
    have hup := RelayIo.reachable_up (R := System.anyStep) (hs.mono fun _ _ _ _ _ => trivial)
    have hbooks := Uplink.books hup
    refine ⟨fun m hm => hbooks.handed_class_iff hc hm, fun m hsent hother => ⟨m.cls, ?_, ?_⟩⟩
    · exact (hbooks.handed_class_iff hc (hbooks.handed_of_sent hsent)).mpr hother
    · exact hbooks.sent_enabled hsent

/-- An event with a channel that is no class token, received and delivered. -/
def ownClassRun : List (RelayIoAction (Message Unit)) :=
  [.up (.publish "ecv1/gw-01/adapter/main/evt/alarm" (.sample none)),
    .up .watch, .up (.recv 4), .up (.relayUp 4 0), .up (.published 4 .ok)]

/-- The relay of device `gw-01` polices the event of the sample run as an event. -/
theorem policed_under_own_class_iff_gw01 : ∃ s : RelayIo (Message Unit),
    s.up.handed.map (fun m => (m.cls, m.topic)) = [(.evt, "ecv1/gw-01/adapter/main/evt/alarm")] ∧
    ∀ m ∈ s.up.handed, RelayEngine.locateClass m.topic = some m.cls ↔
      ¬ Setup.gw01.engine.OtherClassAtLevelThree m.cls m.topic := by
  obtain ⟨s, hs, hobs⟩ := System.exists_reachable_of_exec (M := RelayIo.system Setup.gw01)
    (fun _ _ => true) (fun _ _ _ => trivial) (.init ⟨true, rfl⟩) ownClassRun
    (fun s => s.up.handed.map fun m => (m.cls, m.topic))
    (x := [(.evt, "ecv1/gw-01/adapter/main/evt/alarm")]) (by decide +kernel)
  exact ⟨s, hobs, ((policed_under_own_class_iff Setup.gw01 (Codec.plain_lawful Unit)).2 s hs).1⟩

/-! ### An event that is policed as data -/

/-- The relay of device `gw-01` with events switched off. -/
def Setup.gw01WithoutEvt : Setup (Message Unit) Unit where
  __ := Setup.gw01
  uplink := { classes := Finmap.singleton "evt" { enabled := some false } }

/-- An event whose channel is a class token; the pump of the instance-scope `data` filter receives
it, too. -/
def bypassRun : List (RelayIoAction (Message Unit)) :=
  [.up (.publish "ecv1/gw-01/adapter/evt/data" (.sample none)),
    .up .watch, .up (.recv 8), .up (.relayUp 8 0), .up (.published 8 .ok)]

/-- The instance-scope `data` filter of device `gw-01` matches an event topic that `decide` forwards
as an event; and although events are switched off, that event is delivered to the site. -/
theorem disabled_event_delivered :
    (∃ filter bytes, (UnsClass.data, filter) ∈ Setup.gw01.engine.uplinkSubscriptions ∧
      topicMatches filter "ecv1/gw-01/adapter/evt/data" = true ∧
      Setup.gw01.engine.decide Setup.gw01.codec .uplink "ecv1/gw-01/adapter/evt/data"
        (.sample none) = .forward bytes ∧
      RelayEngine.locateClass "ecv1/gw-01/adapter/evt/data" = some .evt) ∧
    ∃ s, (RelayIo.system Setup.gw01WithoutEvt).Reachable System.anyStep s ∧
      s.up.delivered.map (fun m => RelayEngine.locateClass m.topic) = [some .evt] ∧
      Setup.gw01WithoutEvt.policy.classEnabled .evt = false := by
  refine ⟨⟨"ecv1/+/+/+/data/#", _, by decide, by decide, rfl, by decide⟩, ?_⟩
  obtain ⟨s, hs, hobs⟩ := System.exists_reachable_of_exec
    (M := RelayIo.system Setup.gw01WithoutEvt)
    (fun _ _ => true) (fun _ _ _ => trivial) (.init ⟨true, rfl⟩) bypassRun
    (fun s => s.up.delivered.map fun m => RelayEngine.locateClass m.topic)
    (x := [some .evt]) (by decide +kernel)
  exact ⟨s, hs, hobs, rfl⟩

end UnsBridge
