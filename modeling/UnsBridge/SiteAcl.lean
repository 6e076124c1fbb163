import UnsBridge.Relay

/-!
# The access control list of the site broker

The recipe of the site broker ships a list of rules that the broker walks from top to bottom; the
first one that applies to a client, an action and a topic decides.  A device bridge is the client
named after its device, a site consumer is a client whose name starts with `consumer-`.

`acl_agrees_iff` compares this boundary with the one that the relay engine has of its own: which of
the subscriptions and publishes of a bridge, and which of the commands of a consumer, the list lets
through.  The list knows the instance scope of a command only, while the engine subscribes and
forwards commands at the component scope, too.
-/

namespace UnsBridge

open TopicFilter

/-- What a client asks the broker for. -/
inductive AclRequest where
  | publish (topic : String)
  | subscribe (filter : String)

/-- Whom a rule is about. -/
inductive AclWho where
  /-- `all`. -/
  | all
  /-- `{username, {re, "^…"}}`: the clients whose name starts with the given text. -/
  | username (start : String)

/-- The action of an allowing rule. -/
inductive AclAction where
  | publish
  | subscribe
  deriving DecidableEq

/-- A rule of the list. -/
inductive AclRule where
  /-- `{allow, who, action, patterns}`. -/
  | allow (who : AclWho) (action : AclAction) (patterns : List String)
  /-- `{deny, all}`. -/
  | denyAll

/-- The rules of `acl.conf`. -/
def siteAcl : List AclRule :=
  [.allow .all .publish ["ecv1/${username}/#", "edgecommons/+"],
    .allow .all .subscribe ["ecv1/${username}/+/+/cmd/#", "edgecommons/+"],
    .allow (.username "consumer-") .subscribe ["ecv1/#", "edgecommons/+"],
    .allow (.username "consumer-") .publish
      ["ecv1/+/+/+/cmd/#", "ecv1/+/_bcast/main/cmd/#", "edgecommons/+"],
    .denyAll]

/-- The action of a request. -/
def AclRequest.action : AclRequest → AclAction
  | .publish _ => .publish
  | .subscribe _ => .subscribe

/-- The levels of a request; those of a topic are all literal. -/
def AclRequest.levels : AclRequest → List (Level String)
  | .publish topic => (TopicFilter.levels topic).map .exact
  | .subscribe filter => (TopicFilter.levels filter).map parseLevel

/-- Whether a rule is about a client. -/
def AclWho.admits (who : AclWho) (user : String) : Bool :=
  match who with
  | .all => true
  | .username start => start.toList.isPrefixOf user.toList

/-- The levels of a pattern for a client: `${username}` is replaced by the client's name. -/
def aclPattern (user pattern : String) : List (Level String) :=
  ((levels pattern).flatMap fun l => if l = "${username}" then levels user else [l]).map parseLevel

/-- Whether a rule applies to a request of a client. -/
def AclRule.applies (user : String) (request : AclRequest) : AclRule → Bool
  | .allow who action patterns =>
    who.admits user && request.action = action &&
      patterns.any fun pattern => covers (aclPattern user pattern) request.levels
  | .denyAll => true

/-- Whether a rule allows what it applies to. -/
def AclRule.allows : AclRule → Bool
  | .allow _ _ _ => true
  | .denyAll => false

/-- First-match evaluation of a list; what no rule applies to is denied. -/
def aclGrants (rules : List AclRule) (user : String) (request : AclRequest) : Bool :=
  ((rules.find? fun rule => rule.applies user request).map AclRule.allows).getD false

/-- A site consumer, by its name. -/
def IsConsumer (user : String) : Prop := (AclWho.username "consumer-").admits user = true

instance (user : String) : Decidable (IsConsumer user) := inferInstanceAs (Decidable (_ = true))

/-- What a client subscribes with the filter reaches a command for another device than the one it is
named after. -/
def ReachesForeignCommand (device filter : String) : Prop :=
  ∃ topic d, topicMatches filter topic = true ∧ (levels topic)[1]? = some d ∧ d ≠ device ∧
    RelayEngine.locateClass topic = some .cmd

/-! ### What the list grants -/

/-- A list of allowing rules that ends in a denial grants what one of its rules applies to. -/
theorem aclGrants_append_denyAll {rules : List AclRule} (hallow : ∀ r ∈ rules, r.allows = true)
    (user : String) (request : AclRequest) :
    aclGrants (rules ++ [.denyAll]) user request = rules.any fun r => r.applies user request := by
  induction rules with
  | nil => rfl
  | cons r rules ih =>
    have hrest := ih fun r hr => hallow r (List.mem_cons_of_mem _ hr)
    by_cases happ : r.applies user request = true
    · have hr := hallow r List.mem_cons_self
      simp [aclGrants, happ, hr]
    · rw [Bool.not_eq_true] at happ
      rw [List.any_cons, happ, Bool.false_or, ← hrest]
      simp [aclGrants, happ]

/-- What the shipped list grants: one of its four allowing rules applies. -/
theorem siteAcl_grants (user : String) (request : AclRequest) :
    aclGrants siteAcl user request =
      siteAcl.dropLast.any fun rule => rule.applies user request := by
  have hallow : ∀ r ∈ siteAcl.dropLast, r.allows = true := by simp [siteAcl, AclRule.allows]
  exact aclGrants_append_denyAll hallow user request

/-- The levels of the client's own subtree. -/
theorem aclPattern_subtree (user : String) : aclPattern user "ecv1/${username}/#" =
    .exact Uns.root :: ((levels user).map parseLevel ++ [.multi]) := by
  have hlevels : levels "ecv1/${username}/#" = ["ecv1", "${username}", "#"] := by decide
  simp [aclPattern, hlevels, Uns.root, parseLevel]

/-- The levels of the commands for the client's own device, at the instance scope. -/
theorem aclPattern_commands (user : String) : aclPattern user "ecv1/${username}/+/+/cmd/#" =
    .exact Uns.root :: ((levels user).map parseLevel ++
      [.single, .single, .exact UnsClass.cmd.token, .multi]) := by
  have hlevels : levels "ecv1/${username}/+/+/cmd/#" =
      ["ecv1", "${username}", "+", "+", "cmd", "#"] := by decide
  simp [aclPattern, hlevels, Uns.root, UnsClass.token, parseLevel]

/-- The levels of a pattern without a placeholder. -/
theorem aclPattern_of_notMem {pattern : String} (user : String)
    (h : "${username}" ∉ levels pattern) :
    aclPattern user pattern = (levels pattern).map parseLevel := by
  have hlevels : ((levels pattern).flatMap fun l =>
      if l = "${username}" then levels user else [l]) = (levels pattern).flatMap fun l => [l] :=
    List.flatMap_congr fun l hl => if_neg (by rintro rfl; exact h hl)
  rw [aclPattern, hlevels, List.flatMap_singleton']

section Requests

variable {user : String}

/-- The rules for publishes. -/
theorem grants_publish (topic : String) : aclGrants siteAcl user (.publish topic) = true ↔
    (matchLevels (aclPattern user "ecv1/${username}/#") (levels topic) = true ∨
        matchLevels (aclPattern user "edgecommons/+") (levels topic) = true) ∨
      IsConsumer user ∧ (matchLevels (aclPattern user "ecv1/+/+/+/cmd/#") (levels topic) = true ∨
        matchLevels (aclPattern user "ecv1/+/_bcast/main/cmd/#") (levels topic) = true ∨
        matchLevels (aclPattern user "edgecommons/+") (levels topic) = true) := by
  rw [siteAcl_grants]
  simp [siteAcl, AclRule.applies, AclRequest.action, AclRequest.levels, AclWho.admits, IsConsumer]

/-- The rules for subscriptions. -/
theorem grants_subscribe (filter : String) : aclGrants siteAcl user (.subscribe filter) = true ↔
    (covers (aclPattern user "ecv1/${username}/+/+/cmd/#") ((levels filter).map parseLevel) = true ∨
        covers (aclPattern user "edgecommons/+") ((levels filter).map parseLevel) = true) ∨
      IsConsumer user ∧
        (covers (aclPattern user "ecv1/#") ((levels filter).map parseLevel) = true ∨
          covers (aclPattern user "edgecommons/+") ((levels filter).map parseLevel) = true) := by
  rw [siteAcl_grants]
  simp [siteAcl, AclRule.applies, AclRequest.action, AclRequest.levels, AclWho.admits, IsConsumer]

/-- The levels of the topics of replies. -/
theorem aclPattern_replies : aclPattern user "edgecommons/+" = [.exact "edgecommons", .single] := by
  rw [aclPattern_of_notMem user (by decide)]
  decide

/-- What is granted on a topic of the namespace: the client's own subtree, and to a consumer the
topics with the command token at level four. -/
theorem grants_publish_iff {topic : String} {ts : List String}
    (htopic : levels topic = Uns.root :: ts) :
    aclGrants siteAcl user (.publish topic) = true ↔
      matchLevels ((levels user).map parseLevel ++ [.multi]) ts = true ∨
        IsConsumer user ∧ ts[3]? = some UnsClass.cmd.token := by
  have hreplies : matchLevels (aclPattern user "edgecommons/+") (levels topic) = false := by
    rw [aclPattern_replies, htopic]
    rfl
  have hsubtree : matchLevels (aclPattern user "ecv1/${username}/#") (levels topic) =
      matchLevels ((levels user).map parseLevel ++ [.multi]) ts := by
    rw [aclPattern_subtree, htopic]
    simp
  have hcommands : matchLevels (aclPattern user "ecv1/+/+/+/cmd/#") (levels topic) = true ↔
      ts[3]? = some UnsClass.cmd.token := by
    have hpattern : aclPattern user "ecv1/+/+/+/cmd/#" =
        [.exact Uns.root, .single, .single, .single, .exact UnsClass.cmd.token, .multi] := by
      rw [aclPattern_of_notMem user (by decide)]
      decide
    rw [hpattern, htopic]
    rcases ts with _ | ⟨a, _ | ⟨b, _ | ⟨c, _ | ⟨t, ts⟩⟩⟩⟩ <;> simp [eq_comm]
  -- broadcasts are covered by the pattern before theirs
  have hbcast : matchLevels (aclPattern user "ecv1/+/_bcast/main/cmd/#") (levels topic) = true →
      ts[3]? = some UnsClass.cmd.token := by
    intro hmatch
    refine hcommands.mp (matchLevels_of_covers ?_ hmatch)
    rw [aclPattern_of_notMem user (by decide), aclPattern_of_notMem user (by decide)]
    decide
  rw [grants_publish, hreplies, hsubtree, hcommands]
  simp only [Bool.false_eq_true, or_false]
  refine or_congr_right (and_congr_right fun _ => ?_)
  exact ⟨fun h => h.elim id hbcast, Or.inl⟩

end Requests

section Device

variable {device : String}

/-- A device has one level. -/
theorem levels_of_validToken (h : validToken device = true) : levels device = [device] := by
  have hslash : ∀ t ∈ [device], '/' ∉ t.toList := by simpa using slash_notMem_of_validToken h
  simpa [joinLevels] using levels_joinLevels (List.cons_ne_nil device []) hslash

/-- On the topics of the namespace, a device bridge is granted its own subtree. -/
theorem grants_publish_device (hdevice : validToken device = true) {topic d : String}
    {ts : List String} (htopic : levels topic = Uns.root :: d :: ts) :
    aclGrants siteAcl device (.publish topic) = true ↔
      d = device ∨ IsConsumer device ∧ ts[2]? = some UnsClass.cmd.token := by
  rw [grants_publish_iff htopic, levels_of_validToken hdevice]
  simp [parseLevel_of_validToken hdevice, eq_comm]

/-- What is granted of the filters of the namespace: a bridge gets the commands for its own device
at the instance scope, and a consumer gets every filter. -/
theorem grants_subscribe_iff (hdevice : validToken device = true) {filter : String}
    {fs : List (Level String)} (hfilter : (levels filter).map parseLevel = .exact Uns.root :: fs) :
    aclGrants siteAcl device (.subscribe filter) = true ↔
      covers [.exact device, .single, .single, .exact UnsClass.cmd.token, .multi] fs = true ∨
        IsConsumer device := by
  have hreplies : covers (aclPattern device "edgecommons/+") ((levels filter).map parseLevel) =
      false := by
    rw [aclPattern_replies, hfilter]
    rfl
  have hcommands : aclPattern device "ecv1/${username}/+/+/cmd/#" =
      .exact Uns.root :: [.exact device, .single, .single, .exact UnsClass.cmd.token, .multi] := by
    rw [aclPattern_commands, levels_of_validToken hdevice]
    simp [parseLevel_of_validToken hdevice]
  have hall : aclPattern device "ecv1/#" = [.exact Uns.root, .multi] := by
    rw [aclPattern_of_notMem device (by decide)]
    decide
  rw [grants_subscribe, hreplies, hcommands, hall, hfilter]
  simp [covers]

/-- A bridge that is no consumer is granted no filter that reaches a command for another device. -/
theorem not_grants_foreign (hdevice : validToken device = true) (hconsumer : ¬ IsConsumer device)
    {filter : String} (hforeign : ReachesForeignCommand device filter) :
    aclGrants siteAcl device (.subscribe filter) = false := by
  obtain ⟨topic, d, hmatch, hd, hne, hcmd⟩ := hforeign
  have hroot := RelayEngine.root_of_locateClass hcmd
  rw [← Bool.not_eq_true, grants_subscribe]
  rintro ((hcovers | hcovers) | ⟨hcons, -⟩)
  · have hown := matchLevels_of_covers hcovers hmatch
    rw [aclPattern_commands, levels_of_validToken hdevice] at hown
    cases htopic : levels topic with
    | nil => simp [htopic] at hd
    | cons r ts =>
      cases ts with
      | nil => simp [htopic] at hd
      | cons d' ts =>
        obtain rfl : d' = d := by simpa [htopic] using hd
        simp [htopic, parseLevel_of_validToken hdevice, hne.symm] at hown
  · have hreply := matchLevels_of_covers hcovers hmatch
    rw [aclPattern_replies] at hreply
    cases htopic : levels topic with
    | nil => simp [htopic] at hd
    | cons r ts =>
      obtain rfl : r = Uns.root := by simpa [htopic] using hroot
      simp [htopic, Uns.root] at hreply
  · exact hconsumer hcons

/-- A bridge is granted the instance-scope filter of its commands, and their component-scope filter
only under the name of a consumer. -/
theorem grants_downlink_filter (hdevice : validToken device = true) (instanceScope : Bool) :
    aclGrants siteAcl device
        (.subscribe (filterScoped .cmd (.device device) instanceScope)) = true ↔
      instanceScope = true ∨ IsConsumer device := by
  have hlevels : (levels (filterScoped .cmd (.device device) instanceScope)).map parseLevel =
      .exact Uns.root :: .exact device :: .single ::
        ((if instanceScope then [.single] else []) ++ [.exact UnsClass.cmd.token, .multi]) := by
    have hvalid : (UnsScope.device device).Valid := hdevice
    rw [levels_filterScoped hvalid]
    cases instanceScope <;>
      simp [filterSegments, UnsScope.level, UnsClass.isLeaf, parseLevel_of_validToken hdevice]
  rw [grants_subscribe_iff hdevice hlevels]
  cases instanceScope <;> simp [covers]

/-- A consumer is granted publishes and filters for the commands of a device that is none. -/
theorem grants_foreign (hdevice : validToken device = true) (hconsumer : IsConsumer device) :
    ∃ topic ts, levels topic = Uns.root :: "gw" :: ts ∧ "gw" ≠ device ∧
      aclGrants siteAcl device (.publish topic) = true ∧ ReachesForeignCommand device topic ∧
      aclGrants siteAcl device (.subscribe topic) = true := by
  have hne : "gw" ≠ device := by
    rintro rfl
    exact absurd hconsumer (by decide)
  have hlevels : levels "ecv1/gw/plc/main/cmd/stop" =
      Uns.root :: "gw" :: ["plc", "main", "cmd", "stop"] := by decide
  refine ⟨"ecv1/gw/plc/main/cmd/stop", _, hlevels, hne, ?_, ?_, ?_⟩
  · exact (grants_publish_device hdevice hlevels).mpr (Or.inr ⟨hconsumer, rfl⟩)
  · exact ⟨"ecv1/gw/plc/main/cmd/stop", "gw", by decide, by decide, hne, by decide⟩
  · have hparse : (levels "ecv1/gw/plc/main/cmd/stop").map parseLevel = .exact Uns.root ::
        [.exact "gw", .exact "plc", .exact "main", .exact "cmd", .exact "stop"] := by decide
    exact (grants_subscribe_iff hdevice hparse).mpr (Or.inr hconsumer)

end Device

/-- The topic lies in the subtree of the client's own name. -/
def InSubtree (user topic : String) : Prop :=
  matchLevels ((levels user).map parseLevel ++ [.multi]) ((levels topic).drop 1) = true

/-- How far the list and the engine of a device agree.  The bridge of the device is granted its
instance-scope command filter, its component-scope command filter only under the name of a
consumer, and every publish of its own subtree.  Publishes for other devices are denied to it, and
so are filters that reach commands for other devices, unless it has the name of a consumer.  A
consumer is granted the command topics that the engine forwards exactly if they have the command
token at level four, where the instance scope has it, or lie in the subtree of its own name. -/
theorem acl_agrees_iff {Bytes ρ : Type} [Inhabited ρ] {device : String} {maxHops : ℕ}
    {appEnabled : Bool} {e : RelayEngine}
    (hnew : RelayEngine.new device maxHops appEnabled = some e) :
    (aclGrants siteAcl device (.subscribe (filterScoped .cmd (.device device) true)) = true ∧
      ((∀ f ∈ e.downlinkFilters, aclGrants siteAcl device (.subscribe f) = true) ↔
        IsConsumer device)) ∧
    (∀ topic ts, levels topic = Uns.root :: device :: ts →
      aclGrants siteAcl device (.publish topic) = true) ∧
    ((∀ topic d ts, levels topic = Uns.root :: d :: ts → d ≠ device →
      aclGrants siteAcl device (.publish topic) = false) ↔ ¬ IsConsumer device) ∧
    ((∀ f, ReachesForeignCommand device f → aclGrants siteAcl device (.subscribe f) = false) ↔
      ¬ IsConsumer device) ∧
    ∀ user, IsConsumer user → ∀ (codec : Codec Bytes ρ) topic payload bytes,
      e.decide codec .downlink topic payload = .forward bytes →
        (aclGrants siteAcl user (.publish topic) = true ↔
          (levels topic)[4]? = some UnsClass.cmd.token ∨ InSubtree user topic) := by
  obtain ⟨hdevice, -, -, -, -, -, hfilters⟩ := RelayEngine.new_eq_some hnew
  refine ⟨⟨?_, ?_⟩, ?_, ⟨?_, ?_⟩, ⟨?_, ?_⟩, ?_⟩
  · exact (grants_downlink_filter hdevice true).mpr (Or.inl rfl)
  · simp [hfilters, grants_downlink_filter hdevice]
  · intro topic ts htopic
    exact (grants_publish_device hdevice htopic).mpr (Or.inl rfl)
  · intro hdenied hconsumer
    obtain ⟨topic, ts, htopic, hne, hgrants, -⟩ := grants_foreign hdevice hconsumer
    rw [hdenied topic _ ts htopic hne] at hgrants
    cases hgrants
  · intro hconsumer topic d ts htopic hne
    rw [← Bool.not_eq_true, grants_publish_device hdevice htopic]
    rintro (heq | ⟨hcons, -⟩)
    · exact hne heq
    · exact hconsumer hcons
  · intro hdenied hconsumer
    obtain ⟨topic, -, -, -, -, hforeign, hgrants⟩ := grants_foreign hdevice hconsumer
    rw [hdenied topic hforeign] at hgrants
    cases hgrants
  · exact fun hconsumer f hforeign => not_grants_foreign hdevice hconsumer hforeign
  · intro user hconsumer codec topic payload bytes hforward
    have hroute := (RelayEngine.decide_eq_forward_iff.mp hforward).1
    have hroot := RelayEngine.root_of_locateClass (RelayEngine.route_downlink_iff.mp hroute).1
    cases htopic : levels topic with
    | nil => simp [htopic] at hroot
    | cons r ts =>
      obtain rfl : r = Uns.root := by simpa [htopic] using hroot
      rw [grants_publish_iff htopic]
      simp [InSubtree, htopic, hconsumer, or_comm]

/-- The bridge of device `gw-01` is not granted its component-scope command filter, and a console is
not granted a component-scope command that the bridge forwards. -/
theorem acl_denies_component_scope :
    (¬ ∀ f ∈ RelayEngine.gw01.downlinkFilters,
        aclGrants siteAcl "gw-01" (.subscribe f) = true) ∧
      ¬ ∀ topic payload bytes,
        RelayEngine.gw01.decide (.plain Unit) .downlink topic payload = .forward bytes →
          aclGrants siteAcl "consumer-console" (.publish topic) = true := by
  constructor
  · intro hfilters
    exact absurd (hfilters "ecv1/gw-01/+/cmd/#" (by decide)) (by decide)
  · intro hcommands
    exact absurd (hcommands "ecv1/gw-01/adapter/cmd/write" (.sample none) _ rfl) (by decide)

/-- The console is granted an instance-scope command for device `gw-01`. -/
theorem acl_agrees_gw01 :
    aclGrants siteAcl "consumer-console" (.publish "ecv1/gw-01/adapter/main/cmd/write") = true := by
  obtain ⟨-, -, -, -, hcommands⟩ :=
    @acl_agrees_iff (Message Unit) Unit _ _ _ _ _ RelayEngine.new_gw01
  exact (hcommands "consumer-console" (by decide) (.plain Unit) _ (.sample none) _ rfl).mpr
    (Or.inl (by decide))

end UnsBridge
