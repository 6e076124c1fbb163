import UnsBridge.Relay

/-!
# Which filters match a topic, and which class the engine locates in it

The broker's wildcard match chooses the pump of a message and thereby the class under which its
policy is applied; `RelayEngine.decide` locates the class of the same topic on its own, at level
three if a class token stands there and else at level four.  The two scopes of subscription filters
overlap in one kind of topic: a component-scope topic whose first channel token is a class token is
also an instance-scope topic, with the class token as its instance.

`uplink_atMostOne_iff` and `downlink_atMostOne_iff` say that these topics are the only ones that
two filters of a direction match, and `class_of_forward_iff` that they are the only ones where the
class of the pump and the class of the topic can differ.
-/

namespace UnsBridge

open TopicFilter

/-- The documented rootless grammar `ecv1/{device}/{component}[/{instance}]/{class}[/{channel…}]`:
an instance is no class token, leaf classes have no channel and the others one to three channel
tokens. -/
def ValidTopic (topic : String) : Prop :=
  ∃ (device component : String) (inst : Option String) (cls : UnsClass) (channel : List String),
    levels topic =
      Uns.root :: device :: component :: (inst.toList ++ cls.token :: channel) ∧
    (∀ t ∈ device :: component :: (inst.toList ++ channel), validToken t = true) ∧
    (∀ i ∈ inst, UnsClass.fromToken i = none) ∧
    (if cls.isLeaf then channel = [] else 1 ≤ channel.length ∧ channel.length ≤ 3)

/-- At most one of the filters matches the topic. -/
def AtMostOneMatch (filters : List String) (topic : String) : Prop :=
  ∀ f ∈ filters, ∀ g ∈ filters, topicMatches f topic = true → topicMatches g topic = true → f = g

namespace RelayEngine

/-- The topic carries two classes of the uplink: a channeled one at level three, where the
component scope has its class token, and one at level four, where the instance scope has it (with
nothing behind it, if it is a leaf class). -/
def UplinkClash (e : RelayEngine) (topic : String) : Prop :=
  ∃ d c tail, ∃ outer ∈ uplinkClasses e.appEnabled, ∃ inner ∈ uplinkClasses e.appEnabled,
    levels topic = Uns.root :: d :: c :: outer.token :: inner.token :: tail ∧
      outer.isLeaf = false ∧ (inner.isLeaf = true → tail = [])

/-- The topic is a command of the own device at component scope whose first channel token is the
command token again. -/
def DownlinkClash (e : RelayEngine) (topic : String) : Prop :=
  ∃ c tail, levels topic =
    Uns.root :: e.device :: c :: UnsClass.cmd.token :: UnsClass.cmd.token :: tail

/-- The level at which the component scope has its class carries the token of another class of the
uplink than `cls`. -/
def OtherClassAtLevelThree (e : RelayEngine) (cls : UnsClass) (topic : String) : Prop :=
  ∃ other ∈ uplinkClasses e.appEnabled, other ≠ cls ∧ (levels topic)[3]? = some other.token

end RelayEngine

/-- The filters of the two scopes are different strings. -/
theorem filterScoped_instance_ne_component {scope : UnsScope} (h : scope.Valid)
    (inner outer : UnsClass) : filterScoped inner scope true ≠ filterScoped outer scope false := by
  intro heq
  have hseg : filterSegments inner scope true = filterSegments outer scope false := by
    rw [← levels_filterScoped h, ← levels_filterScoped h, heq]
  have hthree : (filterSegments inner scope true)[3]? = some "+" := rfl
  rw [hseg] at hthree
  have htok : (filterSegments outer scope false)[3]? = some outer.token := by
    simp [filterSegments]
  rw [htok] at hthree
  revert hthree
  cases outer <;> decide

/-- Filters of one scope that match the same topic are equal; filters of different scopes that
match the same topic have their class tokens next to each other in it. -/
theorem filter_eq_or_adjacent {scope : UnsScope} (h : scope.Valid) {c₁ c₂ : UnsClass}
    {b₁ b₂ : Bool} {topic : String} (h₁ : topicMatches (filterScoped c₁ scope b₁) topic = true)
    (h₂ : topicMatches (filterScoped c₂ scope b₂) topic = true) :
    filterScoped c₁ scope b₁ = filterScoped c₂ scope b₂ ∨
      ∃ d c tail, ∃ outer ∈ [c₁, c₂], ∃ inner ∈ [c₁, c₂], scope.Admits d ∧
        levels topic = Uns.root :: d :: c :: outer.token :: inner.token :: tail ∧
        outer.isLeaf = false ∧ (inner.isLeaf = true → tail = []) := by
  have hleaf : ∀ {outer : UnsClass} {t : String} {tail : List String},
      (outer.isLeaf = true → t :: tail = []) → outer.isLeaf = false := by
    intro outer t tail ho
    cases hl : outer.isLeaf with
    | false => rfl
    | true => exact absurd (ho hl) (List.cons_ne_nil _ _)
  cases b₁ <;> cases b₂
  · -- two component-scope filters: both class tokens stand at level three
    obtain ⟨d, c, tail, hlev, -, -⟩ := (topicMatches_component_iff h).mp h₁
    obtain ⟨d', c', tail', hlev', -, -⟩ := (topicMatches_component_iff h).mp h₂
    rw [hlev] at hlev'
    simp only [List.cons.injEq, true_and] at hlev'
    exact Or.inl (by rw [UnsClass.token_injective hlev'.2.2.1])
  · obtain ⟨d, c, tail, hlev, -, htail⟩ := (topicMatches_component_iff h).mp h₁
    obtain ⟨d', c', i, tail', hlev', hd, htail'⟩ := (topicMatches_instance_iff h).mp h₂
    rw [hlev] at hlev'
    simp only [List.cons.injEq, true_and] at hlev'
    obtain ⟨rfl, rfl, rfl, rfl⟩ := hlev'
    exact Or.inr ⟨d, c, tail', c₁, by simp, c₂, by simp, hd, hlev, hleaf htail, htail'⟩
  · obtain ⟨d, c, i, tail, hlev, hd, htail⟩ := (topicMatches_instance_iff h).mp h₁
    obtain ⟨d', c', tail', hlev', -, htail'⟩ := (topicMatches_component_iff h).mp h₂
    rw [hlev'] at hlev
    simp only [List.cons.injEq, true_and] at hlev
    obtain ⟨rfl, rfl, rfl, rfl⟩ := hlev
    exact Or.inr ⟨_, _, tail, c₂, by simp, c₁, by simp, hd, hlev', hleaf htail', htail⟩
  · -- two instance-scope filters: both class tokens stand at level four
    obtain ⟨d, c, i, tail, hlev, -, -⟩ := (topicMatches_instance_iff h).mp h₁
    obtain ⟨d', c', i', tail', hlev', -, -⟩ := (topicMatches_instance_iff h).mp h₂
    rw [hlev] at hlev'
    simp only [List.cons.injEq, true_and] at hlev'
    exact Or.inl (by rw [UnsClass.token_injective hlev'.2.2.2.1])

namespace RelayEngine

variable {device : String} {maxHops : ℕ} {appEnabled : Bool} {e : RelayEngine}

/-- The uplink filter strings are those of the relayed classes at both scopes. -/
theorem mem_uplink_filter_strings (h : new device maxHops appEnabled = some e) {f : String} :
    f ∈ e.uplinkFilters.map Prod.snd ↔ ∃ cls ∈ uplinkClasses e.appEnabled, ∃ b : Bool,
      f = filterScoped cls .all b := by
  obtain ⟨-, -, -, happ, -⟩ := new_eq_some h
  rw [happ]
  simp only [List.mem_map, Prod.exists, mem_uplinkFilters h, Bool.exists_bool]
  constructor
  · rintro ⟨cls, f', ⟨hcls, hf⟩, rfl⟩
    exact ⟨cls, hcls, hf.symm⟩
  · rintro ⟨cls, hcls, hf⟩
    exact ⟨cls, f, ⟨hcls, hf.symm⟩, rfl⟩

/-- At most one uplink filter matches a topic, unless two uplink classes stand next to each other in
it. -/
theorem uplink_atMostOne_iff (h : new device maxHops appEnabled = some e) {topic : String} :
    AtMostOneMatch (e.uplinkFilters.map Prod.snd) topic ↔ ¬ e.UplinkClash topic := by
  have hall : UnsScope.all.Valid := trivial
  constructor
  · rintro huniq ⟨d, c, tail, outer, houter, inner, hinner, hlev, hchan, htail⟩
    apply filterScoped_instance_ne_component hall inner outer
    refine huniq _ ((mem_uplink_filter_strings h).mpr ⟨inner, hinner, true, rfl⟩)
      _ ((mem_uplink_filter_strings h).mpr ⟨outer, houter, false, rfl⟩) ?_ ?_
    · exact (topicMatches_instance_iff hall).mpr ⟨d, c, _, tail, hlev, trivial, htail⟩
    · exact (topicMatches_component_iff hall).mpr
        ⟨d, c, _, hlev, trivial, fun hl => absurd hl (by simp [hchan])⟩
  · intro hclash f hf g hg hmf hmg
    obtain ⟨c₁, hc₁, b₁, rfl⟩ := (mem_uplink_filter_strings h).mp hf
    obtain ⟨c₂, hc₂, b₂, rfl⟩ := (mem_uplink_filter_strings h).mp hg
    apply (filter_eq_or_adjacent hall hmf hmg).resolve_right
    rintro ⟨d, c, tail, outer, houter, inner, hinner, -, hlev, hchan, htail⟩
    refine hclash ⟨d, c, tail, outer, ?_, inner, ?_, hlev, hchan, htail⟩
    · rcases List.mem_pair.mp houter with rfl | rfl <;> assumption
    · rcases List.mem_pair.mp hinner with rfl | rfl <;> assumption

/-- At most one downlink filter matches a topic, unless it is a command of the own device whose
first channel token is the command token. -/
theorem downlink_atMostOne_iff (h : new device maxHops appEnabled = some e) {topic : String} :
    AtMostOneMatch e.downlinkFilters topic ↔ ¬ e.DownlinkClash topic := by
  obtain ⟨hvalid, hdev, -, -, -, -, hdown⟩ := new_eq_some h
  have hscope : (UnsScope.device device).Valid := hvalid
  rw [hdown]
  constructor
  · rintro huniq ⟨c, tail, hlev⟩
    rw [hdev] at hlev
    apply filterScoped_instance_ne_component hscope .cmd .cmd
    apply huniq _ (by simp) _ (by simp)
    · exact (topicMatches_instance_iff hscope).mpr
        ⟨device, c, _, tail, hlev, rfl, fun hl => absurd hl (by decide)⟩
    · exact (topicMatches_component_iff hscope).mpr
        ⟨device, c, _, hlev, rfl, fun hl => absurd hl (by decide)⟩
  · intro hclash f hf g hg hmf hmg
    have hform : ∀ f' ∈ [filterScoped .cmd (.device device) true,
        filterScoped .cmd (.device device) false],
        ∃ b : Bool, f' = filterScoped .cmd (.device device) b := by
      intro f' hf'
      rcases List.mem_pair.mp hf' with rfl | rfl
      · exact ⟨true, rfl⟩
      · exact ⟨false, rfl⟩
    obtain ⟨b₁, rfl⟩ := hform f hf
    obtain ⟨b₂, rfl⟩ := hform g hg
    apply (filter_eq_or_adjacent hscope hmf hmg).resolve_right
    rintro ⟨d, c, tail, outer, houter, inner, hinner, hd, hlev, -, -⟩
    obtain rfl : outer = .cmd := by simpa using houter
    obtain rfl : inner = .cmd := by simpa using hinner
    obtain rfl : d = device := hd
    exact hclash ⟨c, tail, by rw [hdev]; exact hlev⟩

/-- The uplink filters are pairwise different. -/
theorem nodup_uplink_filter_strings (h : new device maxHops appEnabled = some e) :
    (e.uplinkFilters.map Prod.snd).Nodup := by
  obtain ⟨-, -, -, -, -, hup, -⟩ := new_eq_some h
  rw [hup]
  cases appEnabled <;> decide

/-- The downlink filters are pairwise different. -/
theorem nodup_downlinkFilters (h : new device maxHops appEnabled = some e) :
    e.downlinkFilters.Nodup := by
  obtain ⟨hvalid, -, -, -, -, -, hdown⟩ := new_eq_some h
  rw [hdown]
  have hscope : (UnsScope.device device).Valid := hvalid
  simpa using filterScoped_instance_ne_component hscope .cmd .cmd

section Decide

variable {Bytes ρ : Type} [Inhabited ρ] {codec : Codec Bytes ρ} {cls : UnsClass}
  {filter topic : String} {payload : Bytes}

/-- A topic that an uplink filter matches carries the class of the filter, unless the token of a
class stands before it. -/
theorem locateClass_of_match (h : new device maxHops appEnabled = some e)
    (hf : (cls, filter) ∈ e.uplinkFilters) (hm : topicMatches filter topic = true) :
    locateClass topic = some cls ∨
      ∃ other, other ≠ cls ∧ (levels topic)[3]? = some other.token ∧
        locateClass topic = some other := by
  have hall : UnsScope.all.Valid := trivial
  obtain ⟨-, rfl | rfl⟩ := (mem_uplinkFilters h).mp hf
  · obtain ⟨d, c, i, tail, hlev, -, -⟩ := (topicMatches_instance_iff hall).mp hm
    cases hi : UnsClass.fromToken i with
    | none => exact Or.inl (by rw [locateClass_instance hlev hi, UnsClass.fromToken_token])
    | some other =>
      obtain rfl := (UnsClass.fromToken_eq_some_iff.mp hi)
      by_cases hne : other = cls
      · exact Or.inl (hne ▸ locateClass_component hlev)
      · exact Or.inr ⟨other, hne, by simp [hlev], locateClass_component hlev⟩
  · obtain ⟨d, c, tail, hlev, -, -⟩ := (topicMatches_component_iff hall).mp hm
    exact Or.inl (locateClass_component hlev)

/-- The class of the filter and the class that `decide` locates in a topic it forwards agree exactly
unless another uplink class stands at level three of the topic and the payload is relayable. -/
theorem class_of_forward_iff (hc : codec.Lawful) (h : new device maxHops appEnabled = some e)
    (hf : (cls, filter) ∈ e.uplinkFilters) (hm : topicMatches filter topic = true) :
    (∀ bytes, e.decide codec .uplink topic payload = .forward bytes →
        locateClass topic = some cls) ↔
      ¬ (e.OtherClassAtLevelThree cls topic ∧ e.Relayable codec payload) := by
  constructor
  · rintro hall ⟨⟨other, hother, hne, hthree⟩, hrel⟩
    have hlocate : locateClass topic = some other := by
      rcases locateClass_of_match h hf hm with hcls | ⟨other', -, hthree', hcls⟩
      · -- the class of the filter is located at level three or after a non-class level
        have hsome : (UnsClass.fromToken other.token).isSome = true := by simp
        unfold locateClass at hcls ⊢
        simp only [hthree, Option.bind_some, hsome, if_true] at hcls ⊢
        split at hcls
        · cases hcls
        · simp_all
      · rw [hthree', Option.some.injEq] at hthree
        rw [hcls, UnsClass.token_injective hthree]
    have hroute : e.route .uplink topic = .ok () :=
      route_uplink_iff.mpr ⟨other, hlocate, hother⟩
    obtain ⟨bytes, hfwd⟩ := (exists_decide_forward_iff hc).mpr ⟨hroute, hrel⟩
    have hcls := hall bytes hfwd
    rw [hlocate, Option.some.injEq] at hcls
    exact hne hcls
  · intro hnot bytes hfwd
    have hex := (exists_decide_forward_iff hc).mp ⟨bytes, hfwd⟩
    obtain ⟨located, hlocated, hmem⟩ := route_uplink_iff.mp hex.1
    rcases locateClass_of_match h hf hm with hcls | ⟨other, hne, hthree, hcls⟩
    · exact hcls
    · rw [hcls, Option.some.injEq] at hlocated
      exact absurd ⟨⟨other, hlocated ▸ hmem, hne, hthree⟩, hex.2⟩ hnot

end Decide

end RelayEngine

end UnsBridge
