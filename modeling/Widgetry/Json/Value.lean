import Widgetry.Json.Numeral
import Widgetry.Json.Quote

/-!
# JSON values

A value is read as a tree when its type is not known beforehand, and passed over when nothing
depends on it. Only the first has a limit on nesting.
-/

namespace Widgetry

/-- A JSON value. Objects keep their keys in the order of the text, repeated ones included. -/
inductive Json where
  | null
  | boolean (b : Bool)
  | number (n : Json.Numeral)
  | string (s : String)
  | list (items : List Json)
  | object (members : List (String × Json))

namespace Json

/-- How deep lists, objects and records may be nested, counting from one. -/
def depthLimit : Nat := 128

namespace Reader

variable {α : Type}

/-- Reads the elements of a list up to its bracket. -/
def elementsRest (item : Reader α) : Nat → Bool → Reader (List α)
  | 0, _ => failNext .endInList
  | fuel + 1, first => do
    if ← hasElement first then
      let a ← item
      let rest ← elementsRest item fuel false
      return a :: rest
    else return []

/-- Reads the elements of a list after its opening bracket, and the closing one. -/
def elements (item : Reader α) : Reader (List α) :=
  closedBy (do elementsRest item (← fuel) true) closeList

/-- Reads the members of an object up to its brace. -/
def membersRest (item : Reader α) : Nat → Bool → Reader (List (String × α))
  | 0, _ => failNext .endInObject
  | fuel + 1, first => do
    match ← nextKey first with
    | some key =>
      colon
      let a ← item
      let rest ← membersRest item fuel false
      return (key, a) :: rest
    | none => return []

/-- Reads the members of an object after its opening brace, and the closing one. -/
def members (item : Reader α) : Reader (List (String × α)) :=
  closedBy (do membersRest item (← fuel) true) closeObject

/-- Goes one level down, if there is one, and over the opening bracket. -/
def enter (depth : Nat) : Reader Unit := if depth ≤ 1 then failNext .tooDeep else advance

/-- Reads any value. -/
def value : Nat → Reader Json
  | 0 => failNext .tooDeep
  | depth + 1 => do
    match ← peek with
    | none => failNext .endInValue
    | some 'n' =>
      advance
      word ['u', 'l', 'l']
      return .null
    | some 't' =>
      advance
      word ['r', 'u', 'e']
      return .boolean true
    | some 'f' =>
      advance
      word ['a', 'l', 's', 'e']
      return .boolean false
    | some '"' =>
      advance
      return .string (← string)
    | some '[' =>
      enter (depth + 1)
      return .list (← elements (value depth))
    | some '\x7b' =>
      enter (depth + 1)
      return .object (← members (value depth))
    | some c =>
      if c = '-' || Numeral.isDigit c then return .number (← numeral) else failNext .expectedValue

/-- Fails because another type is expected. A value other than a list or an object is read first.
-/
def mismatch (expected : String) : Reader α :=
  settled do
    match ← peek with
    | some 'n' =>
      advance
      word ['u', 'l', 'l']
      failLater (.invalidType .null expected)
    | some 't' =>
      advance
      word ['r', 'u', 'e']
      failLater (.invalidType (.boolean true) expected)
    | some 'f' =>
      advance
      word ['a', 'l', 's', 'e']
      failLater (.invalidType (.boolean false) expected)
    | some '"' =>
      advance
      let s ← string
      failLater (.invalidType (.string s) expected)
    | some '[' => failLater (.invalidType .sequence expected)
    | some '\x7b' => failLater (.invalidType .map expected)
    | some c =>
      if c = '-' || Numeral.isDigit c then
        let n ← numeral
        failLater (.invalidType n.found expected)
      else failNext .expectedValue
    | none => failNext .endInValue

/-- The two kinds of brackets. -/
inductive Bracket where
  | list
  | object
  deriving DecidableEq, Repr

/-- Where a value that is passed over stands: before a value, or inside the innermost bracket,
where a comma may follow or not. -/
inductive Passing where
  | value
  | inside (comma : Bool)

/-- Passes over the key of an object and its colon. -/
def passKey : Reader Unit := do
  match ← peek with
  | some '"' =>
    advance
    passString
    colon
  | some _ => failNext .keyNotString
  | none => failNext .endInObject

/-- Goes to the next value inside a bracket. -/
def passTo : Bracket → Reader Unit
  | .list => return ()
  | .object => passKey

/-- Passes over a value inside the given open brackets, innermost first. -/
def passFrom : Nat → Passing → List Bracket → Reader Unit
  | 0, _, _ => failNext .endInValue
  | fuel + 1, .value, brackets => do
    match ← peek with
    | none => failNext .endInValue
    | some 'n' =>
      advance
      word ['u', 'l', 'l']
      passFrom fuel (.inside true) brackets
    | some 't' =>
      advance
      word ['r', 'u', 'e']
      passFrom fuel (.inside true) brackets
    | some 'f' =>
      advance
      word ['a', 'l', 's', 'e']
      passFrom fuel (.inside true) brackets
    | some '"' =>
      advance
      passString
      passFrom fuel (.inside true) brackets
    | some '[' =>
      advance
      passFrom fuel (.inside false) (.list :: brackets)
    | some '\x7b' =>
      advance
      passFrom fuel (.inside false) (.object :: brackets)
    | some c =>
      if c = '-' || Numeral.isDigit c then
        passNumeral
        passFrom fuel (.inside true) brackets
      else failNext .expectedValue
  | _, .inside _, [] => return ()
  | fuel + 1, .inside comma, bracket :: outer => do
    match bracket, ← peek with
    | .list, some ']' =>
      advance
      passFrom fuel (.inside true) outer
    | .object, some '\x7d' =>
      advance
      passFrom fuel (.inside true) outer
    | _, some c =>
      if comma then
        if c = ',' then
          advance
          passTo bracket
          passFrom fuel .value (bracket :: outer)
        else
          match bracket with
          | .list => failNext .expectedListEnd
          | .object => failNext .expectedObjectEnd
      else
        passTo bracket
        passFrom fuel .value (bracket :: outer)
    | .list, none => failNext .endInList
    | .object, none => failNext .endInObject

/-- Passes over any value, however deep. -/
def passValue : Reader Unit := do
  let steps ← fuel
  passFrom (2 * steps) .value []

end Reader

end Json

end Widgetry
