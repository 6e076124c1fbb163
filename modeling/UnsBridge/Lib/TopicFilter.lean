import Mathlib.Tactic.Common
import Mathlib.Data.List.Basic

/-!
# Topics, filters and wildcard matching

A topic of a publish/subscribe broker is a list of levels, written with `/` between them; a
subscription filter is such a list in which `+` stands for exactly one level and a final `#` for
the rest of the topic, the parent level included.  `levels` splits a topic string, `joinLevels`
builds one, and `matchLevels` is the matching of a parsed filter against the levels of a topic.
`covers` compares two filters level by level; what a filter matches, every filter that covers it
matches, too.
(The rule for topics that start with `$` concerns filters that start with a wildcard and is not
part of this file.)
-/

namespace TopicFilter

/-- The levels of a topic string: its segments between slashes. -/
def levels (topic : String) : List String :=
  (topic.toList.splitOn '/').map String.ofList

/-- The topic string with the given levels. -/
def joinLevels (segments : List String) : String :=
  String.ofList (['/'].intercalate (segments.map String.toList))

/-- Splitting undoes joining, as long as no level contains a slash. -/
theorem levels_joinLevels {segments : List String} (hne : segments ≠ [])
    (hslash : ∀ t ∈ segments, '/' ∉ t.toList) : levels (joinLevels segments) = segments := by
  have hsplit : (['/'].intercalate (segments.map String.toList)).splitOn '/' =
      segments.map String.toList := by
    refine List.splitOn_intercalate '/' ?_ (by simpa using hne)
    simpa using hslash
  simp [levels, joinLevels, hsplit, Function.comp_def]

/-- One level of a subscription filter. -/
inductive Level (α : Type*) where
  /-- A literal level. -/
  | exact (a : α)
  /-- `+`: any one level. -/
  | single
  /-- `#`: all remaining levels, none included. -/
  | multi
  deriving DecidableEq, Repr

section Matching

variable {α : Type*} [DecidableEq α]

/-- Whether the levels of a filter match the levels of a topic. -/
def matchLevels : List (Level α) → List α → Bool
  | [], [] => true
  | .multi :: _, _ => true
  | .exact a :: fs, t :: ts => a = t && matchLevels fs ts
  | .single :: fs, _ :: ts => matchLevels fs ts
  | _, _ => false

@[simp] theorem matchLevels_nil_nil : matchLevels ([] : List (Level α)) [] = true := rfl

@[simp] theorem matchLevels_nil_cons (t : α) (ts : List α) :
    matchLevels [] (t :: ts) = false := rfl

@[simp] theorem matchLevels_multi (fs : List (Level α)) (ts : List α) :
    matchLevels (.multi :: fs) ts = true := by
  cases ts <;> rfl

@[simp] theorem matchLevels_exact_nil (a : α) (fs : List (Level α)) :
    matchLevels (.exact a :: fs) [] = false := rfl

@[simp] theorem matchLevels_exact_cons (a t : α) (fs : List (Level α)) (ts : List α) :
    matchLevels (.exact a :: fs) (t :: ts) = (a = t && matchLevels fs ts) := rfl

@[simp] theorem matchLevels_single_nil (fs : List (Level α)) :
    matchLevels (.single :: fs) ([] : List α) = false := rfl

@[simp] theorem matchLevels_single_cons (t : α) (fs : List (Level α)) (ts : List α) :
    matchLevels (.single :: fs) (t :: ts) = matchLevels fs ts := rfl

/-- Whether a pattern covers a filter level by level: a literal level covers itself, `+` covers any
single level, and `#` all remaining ones. -/
def covers : List (Level α) → List (Level α) → Bool
  | [], [] => true
  | .multi :: _, _ => true
  | .exact a :: ps, .exact b :: fs => a = b && covers ps fs
  | .single :: ps, .exact _ :: fs => covers ps fs
  | .single :: ps, .single :: fs => covers ps fs
  | _, _ => false

@[simp] theorem covers_multi (ps fs : List (Level α)) : covers (.multi :: ps) fs = true := by
  cases fs <;> rfl

/-- Covering is sound: a pattern matches whatever a filter that it covers matches. -/
theorem matchLevels_of_covers {pattern filter : List (Level α)} {topic : List α}
    (hcovers : covers pattern filter = true) (hmatch : matchLevels filter topic = true) :
    matchLevels pattern topic = true := by
  induction pattern, filter using covers.induct generalizing topic with
  | case1 => exact hmatch
  | case2 => exact matchLevels_multi _ _
  | case3 a ps b fs ih =>
    obtain ⟨hab, hrest⟩ := Bool.and_eq_true_iff.mp hcovers
    cases topic with
    | nil => cases hmatch
    | cons t ts =>
      obtain ⟨hbt, hmatch⟩ := Bool.and_eq_true_iff.mp hmatch
      refine Bool.and_eq_true_iff.mpr ⟨?_, ih hrest hmatch⟩
      rw [of_decide_eq_true hab]
      exact hbt
  | case4 ps b fs ih =>
    cases topic with
    | nil => cases hmatch
    | cons t ts => exact ih hcovers (Bool.and_eq_true_iff.mp hmatch).2
  | case5 ps fs ih =>
    cases topic with
    | nil => cases hmatch
    | cons t ts => exact ih hcovers hmatch
  | case6 ps fs h₁ h₂ h₃ h₄ h₅ => simp [covers] at hcovers

/-- A topic is covered by the patterns that match it. -/
@[simp] theorem covers_map_exact (pattern : List (Level α)) (topic : List α) :
    covers pattern (topic.map .exact) = matchLevels pattern topic := by
  induction pattern generalizing topic with
  | nil => cases topic <;> rfl
  | cons p ps ih =>
    cases p with
    | multi => simp
    | exact a =>
      cases topic with
      | nil => rfl
      | cons t ts => simp [covers, ih]
    | single =>
      cases topic with
      | nil => rfl
      | cons t ts => simp [covers, ih]

end Matching

/-- The level a filter segment denotes. -/
def parseLevel (segment : String) : Level String :=
  if segment = "+" then .single else if segment = "#" then .multi else .exact segment

@[simp] theorem parseLevel_plus : parseLevel "+" = .single := rfl

@[simp] theorem parseLevel_hash : parseLevel "#" = .multi := rfl

/-- A segment that is no wildcard stands for itself. -/
theorem parseLevel_of_ne {segment : String} (hplus : segment ≠ "+") (hhash : segment ≠ "#") :
    parseLevel segment = .exact segment := by
  simp [parseLevel, hplus, hhash]

/-- Whether a topic string matches a filter string. -/
def topicMatches (filter topic : String) : Bool :=
  matchLevels ((levels filter).map parseLevel) (levels topic)

end TopicFilter
