import UnsBridge.Envelope

/-!
# Schemas for JSON values, and readers of JSON values

A schema is a test of values; the constructions are those of the JSON schema language that the
configuration schema uses.  A reader takes a value of some type out of a JSON value, as the
deserializers that `serde` derives do: a struct is read from an object by the names of its fields,
or from an array by their positions, and a field that is not written has its default.

`Agrees` compares the two: among the values that a schema accepts, a reader takes exactly those
that fit, and what it takes carries what is written there.
-/

namespace UnsBridge

/-! ### Access to values -/

/-- `Value::get` with a member name. -/
def Value.get : Value → String → Option Value
  | .object members, name => members.lookup name
  | _, _ => none

@[simp] theorem Value.get_object (members : List (String × Value)) (name : String) :
    (Value.object members).get name = members.lookup name := rfl

/-- The members of an object. -/
def Value.members : Value → List (String × Value)
  | .object members => members
  | _ => []

/-- `Value::as_array`. -/
def Value.asArray : Value → Option (List Value)
  | .array items => some items
  | _ => none

/-- The value that a number denotes. -/
def Number.toRat : Number → ℚ
  | .posInt n => n
  | .negInt n => n
  | .float q => q

/-- The number denotes `n`, as an integer literal or not. -/
def Value.Denotes (v : Value) (n : ℕ) : Prop := ∃ k, v = .number k ∧ k.toRat = n

/-- An integer literal in the range of the unsigned integers of a width. -/
def Value.IsUnsigned (width : ℕ) (v : Value) : Prop := ∃ n, v = .number (.posInt n) ∧ n < 2 ^ width

/-! ### Schemas -/

/-- A schema, as the test of the values that it accepts. -/
abbrev Schema : Type := Value → Bool

namespace Schema

/-- The schema that accepts everything. -/
def any : Schema := fun _ => true

/-- `"not": {}`. -/
def never : Schema := fun _ => false

/-- `"type": "string"` with a minimal length. -/
def string (minLength : ℕ) : Schema
  | .string s => minLength ≤ s.length
  | _ => false

/-- `"type": "boolean"`. -/
def boolean : Schema
  | .bool _ => true
  | _ => false

/-- `"type": "number"` with a minimum. -/
def number (minimum : ℚ) : Schema
  | .number k => minimum ≤ k.toRat
  | _ => false

/-- `"type": "integer"` with bounds: the numbers without fractional part. -/
def integer (minimum : ℚ) (maximum : Option ℚ) : Schema
  | .number k => k.toRat.den = 1 && minimum ≤ k.toRat && maximum.all fun m => k.toRat ≤ m
  | _ => false

/-- `"type": "object"` with required members, the schemas of known members and that of all others
(`never` for `"additionalProperties": false`). -/
def object (required : List String) (properties : List (String × Schema)) (additional : Schema) :
    Schema
  | .object members =>
    required.all (fun name => (members.lookup name).isSome) &&
      members.all fun (name, v) => ((properties.lookup name).getD additional) v
  | _ => false

variable {required : List String} {properties : List (String × Schema)} {additional : Schema}
  {v : Value}

/-- An object schema accepts objects only. -/
theorem exists_members_of_object (h : object required properties additional v = true) :
    ∃ members, v = .object members := by
  cases v with
  | object members => exact ⟨members, rfl⟩
  | _ => cases h

/-- A required member is there. -/
theorem isSome_get_of_object (h : object required properties additional v = true) {name : String}
    (hname : name ∈ required) : (v.get name).isSome = true := by
  cases v with
  | object members => exact List.all_eq_true.mp (Bool.and_eq_true_iff.mp h).1 name hname
  | _ => cases h

/-- A member meets the schema of its name. -/
theorem accepts_member_of_object (h : object required properties additional v = true)
    {p : String × Value} (hp : p ∈ v.members) :
    ((properties.lookup p.1).getD additional) p.2 = true := by
  cases v with
  | object members => exact List.all_eq_true.mp (Bool.and_eq_true_iff.mp h).2 p hp
  | _ => cases h

end Schema

/-- What is found under a name is a member of that name. -/
theorem Value.mem_members_of_get {v x : Value} {name : String} (h : v.get name = some x) :
    (name, x) ∈ v.members := by
  cases v with
  | object members =>
    obtain ⟨before, after, hmembers, -⟩ := List.lookup_eq_some_iff.mp h
    simp [Value.members, hmembers]
  | _ => cases h

/-- What is found under a name meets the schema of the name. -/
theorem Schema.accepts_get_of_object {required : List String} {properties : List (String × Schema)}
    {additional : Schema} {v x : Value} {name : String}
    (h : object required properties additional v = true) (hget : v.get name = some x) :
    ((properties.lookup name).getD additional) x = true :=
  accepts_member_of_object h (Value.mem_members_of_get hget)

/-! ### Readers -/

/-- An unsigned integer of a width; numbers that are written in another way are not taken. -/
def Value.asUnsigned (width : ℕ) : Value → Option ℕ
  | .number (.posInt n) => if n < 2 ^ width then some n else none
  | _ => none

/-- A boolean. -/
def Value.asBool : Value → Option Bool
  | .bool b => some b
  | _ => none

/-- An `Option`, which is `None` for `null`. -/
def readOption {α : Type} (read : Value → Option α) : Value → Option (Option α)
  | .null => some none
  | v => (read v).map some

/-- A field with a default. -/
def readField {α : Type} (read : Value → Option α) (default : α) : Option Value → Option α
  | none => some default
  | some v => read v

/-- The fields of a struct: the members of an object, or the items of an array that is not longer
than the list of the fields. -/
def Value.fields (names : List String) : Value → Option (String → Option Value)
  | .object members => some fun name => members.lookup name
  | .array items =>
    if items.length ≤ names.length then some fun name => items[names.idxOf name]? else none
  | _ => none

/-! ### Agreement -/

/-- A reading succeeds exactly if the value fits, and its result carries what is written. -/
structure Reads {α : Type} (r : Option α) (Fits : Prop) (Carries : α → Prop) : Prop where
  exists_iff : (∃ a, r = some a) ↔ Fits
  carries : ∀ a, r = some a → Carries a

/-- A reader takes exactly those values accepted by a schema that fit, and what it takes carries
what is written. -/
def Agrees {α : Type} (schema : Schema) (read : Value → Option α) (Fits : Value → Prop)
    (Carries : Value → α → Prop) : Prop :=
  ∀ v, schema v = true → Reads (read v) (Fits v) (Carries v)

/-- A field carries what is written, or its default. -/
def Carried {α : Type} (Carries : Value → α → Prop) (default : α) : Option Value → α → Prop
  | none, a => a = default
  | some v, a => Carries v a

namespace Reads

variable {α γ : Type} {r : Option α} {P Q : Prop} {C : α → Prop} {D : γ → Prop}

/-- A value that is there is read. -/
theorem pure {a : α} (h : C a) : Reads (some a) True C where
  exists_iff := by simp
  carries b hb := Option.some.inj hb ▸ h

/-- One reading after the other succeeds if both values fit. -/
theorem bind {g : α → Option γ} (h : Reads r P C) (hg : ∀ a, C a → Reads (g a) Q D) :
    Reads (r >>= g) (P ∧ Q) D := by
  constructor
  · constructor
    · rintro ⟨c, hc⟩
      obtain ⟨a, ha, hga⟩ := Option.bind_eq_some_iff.mp hc
      exact ⟨h.exists_iff.mp ⟨a, ha⟩, (hg a (h.carries a ha)).exists_iff.mp ⟨c, hga⟩⟩
    · rintro ⟨hP, hQ⟩
      obtain ⟨a, ha⟩ := h.exists_iff.mpr hP
      obtain ⟨c, hc⟩ := (hg a (h.carries a ha)).exists_iff.mpr hQ
      exact ⟨c, Option.bind_eq_some_iff.mpr ⟨a, ha, hc⟩⟩
  · intro c hc
    obtain ⟨a, ha, hga⟩ := Option.bind_eq_some_iff.mp hc
    exact (hg a (h.carries a ha)).carries c hga

/-- The condition of a reading may be put in another way. -/
theorem congr (h : Reads r P C) (hPQ : P ↔ Q) : Reads r Q C :=
  ⟨h.exists_iff.trans hPQ, h.carries⟩

/-- All elements of a list are read if all of them fit. -/
theorem mapM {β : Type} {f : β → Option γ} {P : β → Prop} {D : β → γ → Prop} {l : List β}
    (h : ∀ b ∈ l, Reads (f b) (P b) (D b)) :
    Reads (l.mapM f) (∀ b ∈ l, P b) (List.Forall₂ D l) := by
  induction l with
  | nil => exact ⟨by simp, fun cs hcs => by cases hcs; exact .nil⟩
  | cons b l ih =>
    rw [List.mapM_cons]
    have hrest := ih fun b hb => h b (List.mem_cons_of_mem _ hb)
    have hreads := (h b List.mem_cons_self).bind fun c hc => hrest.bind fun cs hcs =>
      Reads.pure (List.Forall₂.cons hc hcs)
    exact hreads.congr (by simp)

end Reads

/-- Everything read as an unsigned integer is an integer literal in range. -/
theorem Value.asUnsigned_eq_some_iff {width n : ℕ} {v : Value} :
    v.asUnsigned width = some n ↔ v = .number (.posInt n) ∧ n < 2 ^ width := by
  unfold asUnsigned
  split
  · rename_i k
    by_cases hk : k < 2 ^ width
    · simp only [hk, if_true, Option.some.injEq, Value.number.injEq, Number.posInt.injEq]
      exact ⟨fun h => ⟨h, h ▸ hk⟩, And.left⟩
    · simp only [hk, if_false, Value.number.injEq, Number.posInt.injEq, reduceCtorEq, false_iff]
      rintro ⟨rfl, hlt⟩
      exact hk hlt
  · rename_i hnot
    simp only [reduceCtorEq, false_iff]
    rintro ⟨rfl, -⟩
    exact hnot n rfl

/-- Unsigned integers agree with any schema on the integer literals in range. -/
theorem agrees_asUnsigned (schema : Schema) (width : ℕ) :
    Agrees schema (Value.asUnsigned width) (Value.IsUnsigned width) Value.Denotes := fun _ _ =>
  { exists_iff := exists_congr fun _ => Value.asUnsigned_eq_some_iff
    carries := fun n h => ⟨.posInt n, (Value.asUnsigned_eq_some_iff.mp h).1, rfl⟩ }

/-- Booleans agree with their schema. -/
theorem agrees_asBool :
    Agrees Schema.boolean Value.asBool (fun _ => True) (fun v b => v = .bool b) := by
  intro v hv
  cases v with
  | bool b => exact .pure rfl
  | _ => cases hv

/-- Strings agree with their schema. -/
theorem agrees_asStr (minLength : ℕ) :
    Agrees (Schema.string minLength) Value.asStr (fun _ => True) (fun v s => v = .string s) := by
  intro v hv
  cases v with
  | string s => exact .pure rfl
  | _ => cases hv

section Fields

variable {α : Type} {schema : Schema} {read : Value → Option α} {Fits : Value → Prop}
  {Carries : Value → α → Prop}

/-- An optional value agrees where the value does, as long as the schema refuses `null`. -/
theorem Agrees.option (h : Agrees schema read Fits Carries) (hnull : schema .null = false) :
    Agrees schema (readOption read) Fits fun v a => ∃ b, a = some b ∧ Carries v b := by
  intro v hv
  have hread : readOption read v = (read v).map some := by
    cases v with
    | null => cases hnull.symm.trans hv
    | _ => rfl
  rw [hread, Option.map_eq_bind]
  exact ((h v hv).bind fun a ha => .pure ⟨a, rfl, ha⟩).congr (iff_of_eq (and_true _))

variable {required : List String} {properties : List (String × Schema)} {additional : Schema}
  {v : Value}

/-- A field with a default is read if it is not written or fits. -/
theorem Agrees.field (h : Agrees schema read Fits Carries)
    (hv : Schema.object required properties additional v = true) {name : String}
    (hname : (properties.lookup name).getD additional = schema) (default : α) :
    Reads (readField read default (v.get name)) (∀ x, v.get name = some x → Fits x)
      (Carried Carries default (v.get name)) := by
  cases hget : v.get name with
  | none =>
    have hdefault : Reads (some default) True fun a => a = default := .pure rfl
    exact hdefault.congr (by simp)
  | some x =>
    have hx : schema x = true := hname ▸ Schema.accepts_get_of_object hv hget
    exact (h x hx).congr (by simp)

/-- The fields of a value that an object schema accepts are its members. -/
theorem Value.fields_of_object (hv : Schema.object required properties additional v = true)
    (names : List String) : v.fields names = some v.get := by
  obtain ⟨members, rfl⟩ := Schema.exists_members_of_object hv
  rfl

end Fields

end UnsBridge
