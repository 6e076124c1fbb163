import UnsBridge.Lib.TopicFilter

/-!
# The UNS: classes, tokens, topics and subscription filters

The part of the unified namespace that the bridge uses: the eight closed classes with their
tokens, the token rule, the rootless grammar `ecv1/{device}/{component}[/{instance}]/{class}[/…]`
and the wildcard filters that the library's `Uns::filter_scoped` builds.  Leaf classes end at the
class token; filters of the other classes end in `/#`.
-/

namespace UnsBridge

open TopicFilter

/-- `UnsClass`: the closed classes of the namespace. -/
inductive UnsClass where
  | state | metric | cfg | log | data | evt | cmd | app
  deriving DecidableEq, Repr

/-- The class token, as it stands in a topic. -/
def UnsClass.token : UnsClass → String
  | .state => "state"
  | .metric => "metric"
  | .cfg => "cfg"
  | .log => "log"
  | .data => "data"
  | .evt => "evt"
  | .cmd => "cmd"
  | .app => "app"

/-- `UnsClass::from_token`. -/
def UnsClass.fromToken (token : String) : Option UnsClass :=
  [.state, .metric, .cfg, .log, .data, .evt, .cmd, .app].find? fun c => c.token = token

/-- A class is found from its own token. -/
@[simp] theorem UnsClass.fromToken_token (c : UnsClass) : fromToken c.token = some c := by
  cases c <;> decide

/-- The class found from a token carries that token. -/
theorem UnsClass.token_of_fromToken {token : String} {c : UnsClass}
    (h : fromToken token = some c) : c.token = token := by
  simpa using List.find?_some h

/-- `from_token` and `token` are inverse to each other. -/
theorem UnsClass.fromToken_eq_some_iff {token : String} {c : UnsClass} :
    fromToken token = some c ↔ token = c.token :=
  ⟨fun h => (token_of_fromToken h).symm, fun h => h ▸ fromToken_token c⟩

/-- Distinct classes have distinct tokens. -/
theorem UnsClass.token_injective : Function.Injective UnsClass.token := by
  intro c d h
  have hd : fromToken c.token = some d := by rw [h, fromToken_token]
  rw [fromToken_token] at hd
  exact Option.some.inj hd

/-- The leaf classes: their topics end at the class token. -/
def UnsClass.isLeaf : UnsClass → Bool
  | .state | .cfg => true
  | _ => false

/-- `Uns::ROOT`. -/
def Uns.root : String := "ecv1"

/-- Whether two dots stand next to each other. -/
def hasDoubleDot : List Char → Bool
  | '.' :: '.' :: _ => true
  | _ :: cs => hasDoubleDot cs
  | [] => false

/-- The token rule: not empty, no `/`, `+`, `#`, `\`, control character or `..`. -/
def validToken (token : String) : Bool :=
  token ≠ "" && token.toList.all (fun c => !(c ∈ ['/', '+', '#', '\\']) && 32 ≤ c.toNat &&
    !(127 ≤ c.toNat && c.toNat < 160)) && !hasDoubleDot token.toList

/-- A token contains no slash. -/
theorem slash_notMem_of_validToken {token : String} (h : validToken token = true) :
    '/' ∉ token.toList := by
  intro hmem
  simp only [validToken, Bool.and_eq_true, List.all_eq_true] at h
  simpa using (h.1.2 '/' hmem)

/-- A token is no wildcard. -/
theorem parseLevel_of_validToken {token : String} (h : validToken token = true) :
    parseLevel token = .exact token := by
  apply parseLevel_of_ne
  · rintro rfl
    exact absurd h (by decide)
  · rintro rfl
    exact absurd h (by decide)

/-- `UnsScope`: all devices, or one. -/
inductive UnsScope where
  | all
  | device (token : String)

/-- The device level of a filter of the given scope. -/
def UnsScope.level : UnsScope → String
  | .all => "+"
  | .device token => token

/-- The segments of `Uns::filter_scoped`: the wildcard filter of a class, with or without the
instance level. -/
def filterSegments (cls : UnsClass) (scope : UnsScope) (instanceScope : Bool) : List String :=
  [Uns.root, scope.level, "+"] ++ (if instanceScope then ["+"] else []) ++
    [cls.token] ++ (if cls.isLeaf then [] else ["#"])

/-- `Uns::filter_scoped`. -/
def filterScoped (cls : UnsClass) (scope : UnsScope) (instanceScope : Bool) : String :=
  joinLevels (filterSegments cls scope instanceScope)

/-- No class token contains a slash. -/
theorem slash_notMem_token (c : UnsClass) : '/' ∉ c.token.toList := by
  cases c <;> decide

/-- No class token is a wildcard. -/
@[simp] theorem parseLevel_token (c : UnsClass) : parseLevel c.token = .exact c.token := by
  cases c <;> rfl

/-- The root is no wildcard. -/
@[simp] theorem parseLevel_root : parseLevel Uns.root = .exact Uns.root := rfl

/-- The scope of a filter is well formed when its device is a token. -/
def UnsScope.Valid : UnsScope → Prop
  | .all => True
  | .device token => validToken token = true

/-- The pattern that the device level of a scope denotes. -/
def UnsScope.pattern : UnsScope → Level String
  | .all => .single
  | .device token => .exact token

/-- The device level of a well-formed scope parses to its pattern. -/
theorem UnsScope.parseLevel_level {scope : UnsScope} (h : scope.Valid) :
    parseLevel scope.level = scope.pattern := by
  cases scope with
  | all => rfl
  | device token => exact parseLevel_of_validToken h

/-- The segments of a well-formed filter contain no slash. -/
theorem slash_notMem_filterSegments {cls : UnsClass} {scope : UnsScope} (h : scope.Valid)
    (instanceScope : Bool) :
    ∀ t ∈ filterSegments cls scope instanceScope, '/' ∉ t.toList := by
  have hscope : '/' ∉ scope.level.toList := by
    cases scope with
    | all => decide
    | device token => exact slash_notMem_of_validToken h
  have hroot : '/' ∉ Uns.root.toList := by decide
  have hplus : '/' ∉ "+".toList := by decide
  have hhash : '/' ∉ "#".toList := by decide
  have hcls := slash_notMem_token cls
  intro t ht
  cases instanceScope <;> cases hleaf : cls.isLeaf <;>
    simp only [filterSegments, hleaf, if_true, if_false, Bool.false_eq_true, List.cons_append,
      List.nil_append, List.append_nil, List.mem_cons, List.not_mem_nil, or_false] at ht <;>
    rcases ht with rfl | rfl | rfl | rfl | rfl | rfl <;> assumption

/-- The levels of a class filter are the segments it was built from. -/
theorem levels_filterScoped {cls : UnsClass} {scope : UnsScope} (h : scope.Valid)
    (instanceScope : Bool) :
    levels (filterScoped cls scope instanceScope) = filterSegments cls scope instanceScope :=
  levels_joinLevels (by simp [filterSegments]) (slash_notMem_filterSegments h instanceScope)

/-- The devices that a scope admits. -/
def UnsScope.Admits : UnsScope → String → Prop
  | .all, _ => True
  | .device token, d => d = token

/-- Matching a class filter, level by level. -/
theorem topicMatches_filterScoped {cls : UnsClass} {scope : UnsScope} (h : scope.Valid)
    (instanceScope : Bool) (topic : String) :
    topicMatches (filterScoped cls scope instanceScope) topic =
      matchLevels (.exact Uns.root :: scope.pattern :: .single ::
        ((if instanceScope then [.single] else []) ++
          .exact cls.token :: if cls.isLeaf then [] else [.multi])) (levels topic) := by
  rw [topicMatches, levels_filterScoped h]
  cases instanceScope <;> cases hleaf : cls.isLeaf <;>
    simp [filterSegments, hleaf, UnsScope.parseLevel_level h]

/-- The end of a class filter matches the class token, followed by nothing for a leaf class. -/
theorem matchLevels_classEnd (cls : UnsClass) (ts : List String) :
    matchLevels (.exact cls.token :: if cls.isLeaf then [] else [.multi]) ts = true ↔
      ∃ tail, ts = cls.token :: tail ∧ (cls.isLeaf = true → tail = []) := by
  cases ts with
  | nil => simp
  | cons t tail =>
    cases hleaf : cls.isLeaf
    · simp [eq_comm]
    · cases tail <;> simp [eq_comm]

/-- The device level of a class filter matches the devices its scope admits. -/
theorem matchLevels_pattern (scope : UnsScope) (fs : List (Level String)) (ts : List String) :
    matchLevels (scope.pattern :: fs) ts = true ↔
      ∃ d rest, ts = d :: rest ∧ scope.Admits d ∧ matchLevels fs rest = true := by
  cases ts with
  | nil => cases scope <;> simp [UnsScope.pattern]
  | cons t rest =>
    have hd : matchLevels (scope.pattern :: fs) (t :: rest) = true ↔
        scope.Admits t ∧ matchLevels fs rest = true := by
      cases scope <;> simp [UnsScope.pattern, UnsScope.Admits, eq_comm (a := t)]
    rw [hd]
    constructor
    · rintro ⟨ht, hm⟩
      exact ⟨t, rest, rfl, ht, hm⟩
    · rintro ⟨d, rest', h, ht, hm⟩
      cases h
      exact ⟨ht, hm⟩

/-- A component-scope filter matches the topics with its class token at level three. -/
theorem topicMatches_component_iff {cls : UnsClass} {scope : UnsScope} (h : scope.Valid)
    {topic : String} : topicMatches (filterScoped cls scope false) topic = true ↔
      ∃ d c tail, levels topic = Uns.root :: d :: c :: cls.token :: tail ∧ scope.Admits d ∧
        (cls.isLeaf = true → tail = []) := by
  rw [topicMatches_filterScoped h]
  rcases levels topic with _ | ⟨r, ts⟩
  · simp
  simp only [matchLevels_exact_cons, Bool.and_eq_true, decide_eq_true_eq, matchLevels_pattern,
    Bool.false_eq_true, if_false, List.nil_append, List.cons.injEq]
  constructor
  · rintro ⟨rfl, d, rest, rfl, hd, hm⟩
    rcases rest with _ | ⟨c, rest⟩
    · simp at hm
    obtain ⟨tail, rfl, htail⟩ := (matchLevels_classEnd cls rest).mp (by simpa using hm)
    exact ⟨d, c, tail, ⟨rfl, rfl⟩, hd, htail⟩
  · rintro ⟨d, c, tail, ⟨rfl, rfl⟩, hd, htail⟩
    exact ⟨rfl, d, _, rfl, hd, (matchLevels_classEnd cls _).mpr ⟨tail, rfl, htail⟩⟩

/-- An instance-scope filter matches the topics with its class token at level four. -/
theorem topicMatches_instance_iff {cls : UnsClass} {scope : UnsScope} (h : scope.Valid)
    {topic : String} : topicMatches (filterScoped cls scope true) topic = true ↔
      ∃ d c i tail, levels topic = Uns.root :: d :: c :: i :: cls.token :: tail ∧
        scope.Admits d ∧ (cls.isLeaf = true → tail = []) := by
  rw [topicMatches_filterScoped h]
  rcases levels topic with _ | ⟨r, ts⟩
  · simp
  simp only [matchLevels_exact_cons, Bool.and_eq_true, decide_eq_true_eq, matchLevels_pattern,
    if_true, List.cons_append, List.nil_append, List.cons.injEq]
  constructor
  · rintro ⟨rfl, d, rest, rfl, hd, hm⟩
    rcases rest with _ | ⟨c, _ | ⟨i, rest⟩⟩
    · simp at hm
    · simp at hm
    obtain ⟨tail, rfl, htail⟩ := (matchLevels_classEnd cls rest).mp (by simpa using hm)
    exact ⟨d, c, i, tail, ⟨rfl, rfl⟩, hd, htail⟩
  · rintro ⟨d, c, i, tail, ⟨rfl, rfl⟩, hd, htail⟩
    exact ⟨rfl, d, _, rfl, hd, (matchLevels_classEnd cls _).mpr ⟨tail, rfl, htail⟩⟩

end UnsBridge
