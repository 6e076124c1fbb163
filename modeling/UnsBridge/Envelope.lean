import Mathlib.Data.Finmap
import Mathlib.Data.Rat.Defs

/-!
# The message envelope and its wire codec

The bridge reads and writes three places of an EdgeCommons envelope: `header.reply_to`,
`header.correlation_id` (for its logs only) and the reserved tag `tags._relay`.  Everything else
of a header, of the tags and of the envelope travels through it unread and is kept here as values
of one type `ρ` about which nothing is known.

The envelope type and the protobuf codec belong to the `edgecommons` library.  The codec is a
parameter `Codec Bytes ρ`; what the bridge relies on is stated once, in `Codec.Lawful`.
-/

namespace UnsBridge

/-- A finite map with string keys. -/
abbrev StrMap (α : Type) : Type := Finmap fun _ : String => α

/-- A JSON number, as `serde_json` keeps it. -/
inductive Number where
  | posInt (n : ℕ)
  | negInt (n : ℤ)
  | float (q : ℚ)
  deriving DecidableEq

/-- `serde_json::Value`: the values that envelope tags carry. -/
inductive Value where
  | null
  | bool (b : Bool)
  | number (n : Number)
  | string (s : String)
  | array (items : List Value)
  | object (members : List (String × Value))

/-- `Value::as_str`. -/
def Value.asStr : Value → Option String
  | .string s => some s
  | _ => none

@[simp] theorem Value.asStr_string (s : String) : (Value.string s).asStr = some s := rfl

/-- The header fields that the bridge reads or writes; `rest` stands for the others. -/
structure Header (ρ : Type) where
  correlationId : String
  replyTo : Option String
  rest : ρ

/-- `MessageTags`: the tag map, and `rest` for any further member. -/
structure MessageTags (ρ : Type) where
  extra : StrMap Value
  rest : ρ

/-- `MessageTags::default`. -/
instance {ρ : Type} [Inhabited ρ] : Inhabited (MessageTags ρ) := ⟨{ extra := ∅, rest := default }⟩

/-- An envelope.  `raw` is the payload of a diagnostic message that has no envelope at all; the
wire never carries one.  `rest` stands for the identity, the body and the content type. -/
structure Message (ρ : Type) where
  header : Header ρ
  tags : Option (MessageTags ρ)
  raw : Option Value
  rest : ρ

/-- `Message::is_raw`. -/
def Message.isRaw {ρ : Type} (m : Message ρ) : Bool := m.raw.isSome

/-- `Message::from_slice` and `Message::to_vec`; the texts of their errors are only logged. -/
structure Codec (Bytes ρ : Type) where
  fromSlice : Bytes → Option (Message ρ)
  toVec : Message ρ → Option Bytes

/-- What the bridge relies on: the bytes of an envelope decode to that envelope, and decoding never
yields a raw message. -/
structure Codec.Lawful {Bytes ρ : Type} (codec : Codec Bytes ρ) : Prop where
  decode_encode : ∀ m b, m.isRaw = false → codec.toVec m = some b → codec.fromSlice b = some m
  decode_not_raw : ∀ b m, codec.fromSlice b = some m → m.isRaw = false

/-- The codec whose bytes are the envelopes themselves; raw messages play the undecodable
payloads. -/
def Codec.plain (ρ : Type) : Codec (Message ρ) ρ where
  fromSlice m := if m.isRaw then none else some m
  toVec m := if m.isRaw then none else some m

/-- The plain codec is lawful. -/
theorem Codec.plain_lawful (ρ : Type) : (Codec.plain ρ).Lawful where
  decode_encode m b hraw h := by
    obtain rfl : m = b := by simpa [plain, hraw] using h
    simp [plain, hraw]
  decode_not_raw b m h := by
    by_cases hraw : b.isRaw
    · simp [plain, hraw] at h
    · obtain rfl : b = m := by simpa [plain, hraw] using h
      simpa using hraw

/-- An envelope without tags, with the given `reply_to`. -/
def Message.sample (replyTo : Option String) : Message Unit where
  header := { correlationId := "42", replyTo, rest := () }
  tags := none
  raw := none
  rest := ()

end UnsBridge
