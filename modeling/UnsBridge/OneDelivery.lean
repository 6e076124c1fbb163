import UnsBridge.ClassLocation
import UnsBridge.Io.RelayIo

/-!
# Every message crosses the bridge at most once

The broker puts one copy of a publish into each subscription with a matching filter, and each pump
passes each copy on at most once.  A publish therefore crosses the bridge at most once if at most
one filter matches its topic.  That is so for every topic on which no two classes clash,
`crosses_once_iff`; on the others two filters match, and `crosses_twice` shows an event and a
command that cross the bridge twice.
-/

namespace UnsBridge

open TopicFilter Transition

variable {Bytes ρ : Type}

/-- Where at most one filter matches the topic of a publish, its received copies are of one
subscription. -/
theorem Bus.Sound.subscription_unique {subs : List Subscription} {b : Bus Bytes}
    (h : Sound subs b) (hnodup : (subs.map Subscription.filter).Nodup) {c c' : Copy Bytes}
    (hc : c ∈ b.received) (hc' : c' ∈ b.received) (hpublish : c'.publish = c.publish)
    (hone : AtMostOneMatch (subs.map Subscription.filter) c.topic) :
    c'.subscription = c.subscription := by
  obtain ⟨-, hpub, s, hs, hmatch⟩ := h.faithful _ c (mem_log_of_received hc)
  obtain ⟨-, hpub', s', hs', hmatch'⟩ := h.faithful _ c' (mem_log_of_received hc')
  rw [hpublish, hpub, Option.some.injEq, Prod.mk.injEq] at hpub'
  have hfilter : s'.filter = s.filter :=
    hone _ (List.mem_map_of_mem (List.mem_of_getElem? hs')) _
      (List.mem_map_of_mem (List.mem_of_getElem? hs)) (hpub'.1 ▸ hmatch') hmatch
  have hlt : c'.subscription < (subs.map Subscription.filter).length := by
    simpa using (List.getElem?_eq_some_iff.mp hs').1
  refine (List.getElem?_inj hlt hnodup).mp ?_
  simp [hs, hs', hfilter]

variable [Inhabited ρ] {S : Setup Bytes ρ}

/-- A publish on a topic without a clash is delivered to the site at most once. -/
theorem Uplink.Books.delivered_le_one {s : Uplink Bytes} (h : s.Books S) {p : ℕ} {topic : String}
    {payload : Bytes} (hp : s.bus.published[p]? = some (topic, payload))
    (hclash : ¬ S.engine.UplinkClash topic) :
    (s.delivered.filter fun m => m.publish = p).length ≤ 1 := by
  obtain ⟨device, maxHops, appEnabled, hnew⟩ := S.engine_new
  refine Collections.length_filter_le_one_of_key (f := Forwarded.subscription) ?_ fun i =>
    h.delivered_once p i
  intro m hm m' hm' hmp hm'p
  obtain ⟨c, hc, hfrom⟩ := h.placed.origin m (h.handed_of_sent (Or.inl hm))
  obtain ⟨c', hc', hfrom'⟩ := h.placed.origin m' (h.handed_of_sent (Or.inl hm'))
  have htopic := (h.wf.bus.faithful _ c' (Bus.mem_log_of_received hc')).2.1
  rw [hfrom'.publish, hm'p, hp, Option.some.injEq, Prod.mk.injEq] at htopic
  rw [← hfrom.subscription, ← hfrom'.subscription]
  refine h.wf.bus.subscription_unique ?_ hc' hc ?_ ?_
  · rw [Setup.map_filter_deviceSubscriptions]
    exact RelayEngine.nodup_uplink_filter_strings hnew
  · rw [hfrom.publish, hfrom'.publish, hmp, hm'p]
  · rw [Setup.map_filter_deviceSubscriptions, ← htopic.1]
    exact (RelayEngine.uplink_atMostOne_iff hnew).mpr hclash

omit [Inhabited ρ] in
/-- A command on a topic without a clash is published on the device bus at most once. -/
theorem Downlink.Books.commanded_le_one {s : Downlink Bytes} (h : s.Books S) {p : ℕ}
    {topic : String} {payload : Bytes} (hp : s.bus.published[p]? = some (topic, payload))
    (hclash : ¬ S.engine.DownlinkClash topic) :
    ((s.log.filterMap DownlinkEvent.commandedCopy).filter fun c => c.publish = p).length ≤ 1 := by
  obtain ⟨device, maxHops, appEnabled, hnew⟩ := S.engine_new
  refine Collections.length_filter_le_one_of_key (f := Copy.subscription) ?_ fun i => ?_
  · intro c hc c' hc' hcp hc'p
    have htopic := (h.bus.faithful _ c' (Bus.mem_log_of_received (h.commanded.received hc'))).2.1
    rw [hc'p, hp, Option.some.injEq, Prod.mk.injEq] at htopic
    refine h.bus.subscription_unique ?_ (h.commanded.received hc') (h.commanded.received hc)
      (hcp.trans hc'p.symm) ?_
    · rw [Setup.map_filter_siteSubscriptions]
      exact RelayEngine.nodup_downlinkFilters hnew
    · rw [Setup.map_filter_siteSubscriptions, ← htopic.1]
      exact (RelayEngine.downlink_atMostOne_iff hnew).mpr hclash
  · have hnodup := (h.commanded.once h.bus i).imp (S := (· ≠ ·)) (fun hlt => hlt.ne)
    exact Collections.length_filter_le_one_of_nodup hnodup p

/-- The filters of a direction are disjoint on a topic exactly if no two classes clash on it.  In
every run, a publish on the device bus whose topic has no clash is delivered to the site at most
once, and a command published on the site broker whose topic has no clash is published on the device
bus at most once. -/
theorem crosses_once_iff (S : Setup Bytes ρ) :
    (∀ topic, (AtMostOneMatch (S.engine.uplinkFilters.map Prod.snd) topic ↔
        ¬ S.engine.UplinkClash topic) ∧
      (AtMostOneMatch S.engine.downlinkFilters topic ↔ ¬ S.engine.DownlinkClash topic)) ∧
    ∀ s, (RelayIo.system S).Reachable System.anyStep s →
      (∀ p topic payload, s.up.bus.published[p]? = some (topic, payload) →
        ¬ S.engine.UplinkClash topic →
          (s.up.delivered.filter fun m => m.publish = p).length ≤ 1) ∧
      ∀ p topic payload, s.down.bus.published[p]? = some (topic, payload) →
        ¬ S.engine.DownlinkClash topic →
          ((s.down.log.filterMap DownlinkEvent.commandedCopy).filter fun c =>
            c.publish = p).length ≤ 1 := by
  constructor
  · intro topic
    obtain ⟨device, maxHops, appEnabled, hnew⟩ := S.engine_new
    exact ⟨RelayEngine.uplink_atMostOne_iff hnew, RelayEngine.downlink_atMostOne_iff hnew⟩
  · intro s hs
    have hup := RelayIo.reachable_up (R := System.anyStep) (hs.mono fun _ _ _ _ _ => trivial)
    have hdown := RelayIo.reachable_down (R := System.anyStep) (hs.mono fun _ _ _ _ _ => trivial)
    exact ⟨fun p topic payload hp hclash => (Uplink.books hup).delivered_le_one hp hclash,
      fun p topic payload hp hclash => (Downlink.books hdown).commanded_le_one hp hclash⟩

/-! ### Messages that cross the bridge twice -/

/-- An event whose channel is a class token is received by the pump of the component-scope `evt`
filter and by the pump of the instance-scope `data` filter; a command whose channel is the command
token is received by both downlink pumps. -/
def twiceRun : List (RelayIoAction (Message Unit)) :=
  [.up (.publish "ecv1/gw-01/adapter/evt/data" (.sample none)),
    .up (.recv 5), .up (.relayUp 5 0), .up (.published 5 .ok),
    .up (.recv 8), .up (.relayUp 8 0), .up (.published 8 .ok),
    .down (.publish "ecv1/gw-01/adapter/cmd/cmd" (.sample none)),
    .down (.recv 0), .down (.rewriteDownlink 0 "r" 0), .down (.published 0 .ok),
    .down (.recv 1), .down (.rewriteDownlink 1 "r" 0), .down (.published 1 .ok)]

/-- On the relay of device `gw-01`, the event and the command of the sample run have valid topics
that two filters match, and each of them crosses the bridge twice. -/
theorem crosses_twice :
    ValidTopic "ecv1/gw-01/adapter/evt/data" ∧ ValidTopic "ecv1/gw-01/adapter/cmd/cmd" ∧
    ¬ AtMostOneMatch (Setup.gw01.engine.uplinkFilters.map Prod.snd) "ecv1/gw-01/adapter/evt/data" ∧
    ¬ AtMostOneMatch Setup.gw01.engine.downlinkFilters "ecv1/gw-01/adapter/cmd/cmd" ∧
    ∃ s, (RelayIo.system Setup.gw01).Reachable System.anyStep s ∧
      (s.up.bus.published.map Prod.fst, s.up.delivered.map Forwarded.publish) =
        (["ecv1/gw-01/adapter/evt/data"], [0, 0]) ∧
      (s.down.bus.published.map Prod.fst,
        (s.down.log.filterMap DownlinkEvent.commandedCopy).map Copy.publish) =
        (["ecv1/gw-01/adapter/cmd/cmd"], [0, 0]) := by
  refine ⟨⟨"gw-01", "adapter", none, .evt, ["data"], by decide, by decide, by simp, by decide⟩,
    ⟨"gw-01", "adapter", none, .cmd, ["cmd"], by decide, by decide, by simp, by decide⟩,
    fun hone => ?_, fun hone => ?_, ?_⟩
  · exact absurd (hone "ecv1/+/+/evt/#" (by decide) "ecv1/+/+/+/data/#" (by decide) (by decide)
      (by decide)) (by decide)
  · exact absurd (hone "ecv1/gw-01/+/cmd/#" (by decide) "ecv1/gw-01/+/+/cmd/#" (by decide)
      (by decide) (by decide)) (by decide)
  · obtain ⟨s, hs, hobs⟩ := System.exists_reachable_of_exec (M := RelayIo.system Setup.gw01)
      (fun _ _ => true) (fun _ _ _ => trivial) (.init ⟨true, rfl⟩) twiceRun
      (fun s => ((s.up.bus.published.map Prod.fst, s.up.delivered.map Forwarded.publish),
        (s.down.bus.published.map Prod.fst,
          (s.down.log.filterMap DownlinkEvent.commandedCopy).map Copy.publish)))
      (x := ((["ecv1/gw-01/adapter/evt/data"], [0, 0]), (["ecv1/gw-01/adapter/cmd/cmd"], [0, 0])))
      (by decide +kernel)
    exact ⟨s, hs, (Prod.mk.inj hobs).1, (Prod.mk.inj hobs).2⟩

end UnsBridge
