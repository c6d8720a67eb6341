import Widgetry.Number.Layout
import Widgetry.Text.Quoted

/-!
# What can be wrong with a JSON text

A reader that fails says what the problem is and, once that is settled, at which place of the
text. The place becomes a line and a column of bytes only when the failure is reported.
-/

namespace Widgetry.Json

/-- A value that does not fit the type that is being read. -/
inductive Found where
  | null
  | boolean (b : Bool)
  | integer (n : Int)
  | real (x : Float)
  | string (s : String)
  | sequence
  | map

/-- A double precision number in a message. -/
def realText (x : Float) : String :=
  match Number.Layout.double.text? Number.binary64 (Number.unpack64 x) with
  | some text => String.ofList text
  | none => "null"

def Found.describe : Found → String
  | .null => "null"
  | .boolean b => "boolean `" ++ (if b then "true" else "false") ++ "`"
  | .integer n => "integer `" ++ toString n ++ "`"
  | .real x => "floating point `" ++ realText x ++ "`"
  | .string s => "string " ++ Text.quoted s
  | .sequence => "sequence"
  | .map => "map"

/-- Problems: the text ends too early, it is not JSON, or it holds other data than expected. -/
inductive Problem where
  | endInValue
  | endInString
  | endInList
  | endInObject
  | expectedValue
  | expectedWord
  | badNumber
  | numberRange
  | controlCharacter
  | badEscape
  | brokenPair
  | loneSurrogate
  | trailingComma
  | trailingText
  | keyNotString
  | expectedColon
  | expectedListEnd
  | expectedObjectEnd
  | tooDeep
  | invalidType (found : Found) (expected : String)
  | invalidValue (found : Found) (expected : String)
  | invalidLength (length : Nat) (expected : String)
  | duplicateField (name : String)
  | missingField (name : String)
  | unknownVariant (name : String) (known : List String)
  | rejected (reason : String)

/-- The three sorts of problems. -/
inductive Category where
  | syntactic
  | data
  | ended
  deriving DecidableEq, Repr

namespace Problem

def category : Problem → Category
  | .endInValue | .endInString | .endInList | .endInObject => .ended
  | .invalidType .. | .invalidValue .. | .invalidLength .. | .duplicateField .. | .missingField ..
  | .unknownVariant .. | .rejected .. => .data
  | _ => .syntactic

/-- A word between the marks that messages use for names. -/
def ticked (s : String) : String := "`" ++ s ++ "`"

def message : Problem → String
  | .endInValue => "EOF while parsing a value"
  | .endInString => "EOF while parsing a string"
  | .endInList => "EOF while parsing a list"
  | .endInObject => "EOF while parsing an object"
  | .expectedValue => "expected value"
  | .expectedWord => "expected ident"
  | .badNumber => "invalid number"
  | .numberRange => "number out of range"
  | .controlCharacter => "control character (\\u0000-\\u001F) found while parsing a string"
  | .badEscape => "invalid escape"
  | .brokenPair => "unexpected end of hex escape"
  | .loneSurrogate => "lone leading surrogate in hex escape"
  | .trailingComma => "trailing comma"
  | .trailingText => "trailing characters"
  | .keyNotString => "key must be a string"
  | .expectedColon => "expected `:`"
  | .expectedListEnd => "expected `,` or `]`"
  | .expectedObjectEnd => "expected `,` or `\x7d`"
  | .tooDeep => "recursion limit exceeded"
  | .invalidType found expected => "invalid type: " ++ found.describe ++ ", expected " ++ expected
  | .invalidValue found expected => "invalid value: " ++ found.describe ++ ", expected " ++ expected
  | .invalidLength length expected =>
    "invalid length " ++ toString length ++ ", expected " ++ expected
  | .duplicateField name => "duplicate field " ++ ticked name
  | .missingField name => "missing field " ++ ticked name
  | .unknownVariant name known =>
    "unknown variant " ++ ticked name ++ ", expected one of " ++ ", ".intercalate (known.map ticked)
  | .rejected reason => reason

end Problem

/-- A place in a text: what is left of it there, less a number of bytes. -/
structure Place where
  left : List Char
  bytes : Nat

/-- A problem, and its place once that is settled. -/
structure Fault where
  problem : Problem
  place : Option Place

/-- The bytes of a text. -/
def bytesOf (s : List Char) : List UInt8 := s.flatMap String.utf8EncodeChar

/-- A line, counted from one, and the number of bytes on it. -/
structure Position where
  line : Nat
  column : Nat
  deriving DecidableEq, Repr

/-- The position after some bytes. -/
def Position.after (bytes : List UInt8) : Position where
  line := bytes.count 10 + 1
  column := (bytes.reverse.takeWhile (· ≠ 10)).length

/-- The position of a place in a whole text. -/
def Place.position (p : Place) (text : List Char) : Position :=
  .after (bytesOf (text.take (text.length - p.left.length)) ++ (bytesOf p.left).take p.bytes)

/-- A problem as it is reported; a problem with a value as a whole has no position. -/
structure Error where
  problem : Problem
  position : Option Position

namespace Error

def ofFault (text : List Char) (f : Fault) : Error := ⟨f.problem, f.place.map (·.position text)⟩

def line (e : Error) : Nat := (e.position.map (·.line)).getD 0

def column (e : Error) : Nat := (e.position.map (·.column)).getD 0

def message (e : Error) : String :=
  match e.position with
  | some p => e.problem.message ++ " at line " ++ toString p.line ++ " column " ++ toString p.column
  | none => e.problem.message

end Error

end Widgetry.Json
