import Widgetry.Json.Document
import Widgetry.Json.Record

/-!
# Types that are stored as JSON

A codec reads values of a type at a given depth and says how they are written.
-/

namespace Widgetry.Json

class Codec (α : Type) where
  /-- Reads a value, with the number of levels that may still be entered. -/
  read : Nat → Reader α
  /-- The document of a value. -/
  write : α → Document

namespace Reader

variable {α : Type}

/-- Reads a number at single precision. -/
def single : Reader Float32 :=
  settled do
    match ← peek with
    | none => failNext .endInValue
    | some c =>
      if c = '-' || Numeral.isDigit c then return (← numeral).toFloat32 else mismatch "f32"

/-- The 32-bit number of a numeral. -/
def wordOf : Numeral → Reader UInt32
  | .integer n =>
    if 0 ≤ n ∧ n.toNat < Nat.pow 2 32 then return n.toNat.toUInt32
    else failLater (.invalidValue (.integer n) "u32")
  | .real x => failLater (.invalidType (.real x) "u32")

/-- Reads a natural number of at most 32 bits. -/
def word32 : Reader UInt32 :=
  settled do
    match ← peek with
    | none => failNext .endInValue
    | some c =>
      if c = '-' || Numeral.isDigit c then wordOf (← numeral) else mismatch "u32"

/-- Reads a string and makes something of it; other values are not what is expected. -/
def stringThen (expected : String) (make : String → Reader α) : Reader α :=
  settled do
    match ← peek with
    | none => failNext .endInValue
    | some '"' =>
      advance
      make (← string)
    | some _ => mismatch expected

/-- Reads a list. -/
def listOf (depth : Nat) (item : Nat → Reader α) : Reader (List α) :=
  settled do
    match ← peek with
    | none => failNext .endInValue
    | some '[' =>
      enter depth
      elements (item (depth - 1))
    | some _ => mismatch "a sequence"

/-- Reads a value that may be `null`. -/
def optional (item : Reader α) : Reader (Option α) := do
  match ← peek with
  | some 'n' =>
    advance
    word ['u', 'l', 'l']
    return none
  | _ => return some (← item)

end Reader

instance : Codec Float32 := ⟨fun _ => Reader.single, Document.single⟩

instance : Codec UInt32 := ⟨fun _ => Reader.word32, fun n => Document.natural n.toNat⟩

instance : Codec String := ⟨fun _ => Reader.stringThen "a string" pure, Document.string⟩

instance {α : Type} [Codec α] : Codec (List α) :=
  ⟨fun depth => Reader.listOf depth Codec.read, fun items => .list (items.map Codec.write)⟩

instance {α : Type} [Codec α] : Codec (Option α) :=
  ⟨fun depth => Reader.optional (Codec.read depth), fun a => (a.map Codec.write).getD .null⟩

/-- A field whose values have a codec. -/
def Field.of {σ α : Type} [Codec α] (name : String) (required : Bool) (get : σ → Option α)
    (set : σ → α → σ) : Field σ where
  name
  required
  given draft := (get draft).isSome
  read depth draft := do return set draft (← Codec.read depth)

/-- The value of a field that must be given. -/
def demand {α : Type} (name : String) (a : Option α) : Except String α :=
  match a with
  | some a => .ok a
  | none => .error name

/-- Reads a whole text. -/
def parse {α : Type} [Codec α] (text : String) : Except Error α :=
  let whole : Reader α := do
    let a ← Codec.read depthLimit
    Reader.finish
    return a
  match whole text.toList with
  | .ok a _ => .ok a
  | .error f _ => .error (.ofFault text.toList f)

/-- The text on one line. -/
def compact {α : Type} [Codec α] (a : α) : String := String.ofList (Codec.write a).compact

/-- The text over several lines. -/
def pretty {α : Type} [Codec α] (a : α) : String := String.ofList ((Codec.write a).pretty 0)

end Widgetry.Json
