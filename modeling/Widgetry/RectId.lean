import Widgetry.Text.Hex

/-!
# Rectangle identifiers

Identifiers are 128-bit numbers with the usual text of five hyphenated groups. A fresh one is
random, apart from the digits that mark it as such.
-/

namespace Widgetry

/-- Names a rectangle. -/
structure RectId where
  value : BitVec 128
  deriving DecidableEq

namespace RectId

/-- Lengths of the groups of the text form. -/
def groupLengths : List Nat := [8, 4, 4, 4, 12]

/-- A text cut into pieces of the given lengths. -/
def cut : List Nat → List Char → List (List Char)
  | [], _ => []
  | n :: rest, s => s.take n :: cut rest (s.drop n)

/-- Groups of lower case digits with hyphens between them. -/
def text (id : RectId) : String :=
  String.ofList (['-'].intercalate (cut groupLengths (Text.hexDigits 32 id.value.toNat)))

instance : ToString RectId := ⟨text⟩

/-- An identifier made of random bits, with the version and variant digits set. -/
def ofRandom (bits : BitVec 128) : RectId :=
  ⟨(bits &&& ~~~(0xf#128 <<< 76 ||| 3#128 <<< 62)) ||| 4#128 <<< 76 ||| 2#128 <<< 62⟩

/-- The next identifier of a random sequence. -/
def fresh (gen : StdGen) : RectId × StdGen :=
  let (n, gen) := randNat gen 0 (Nat.pow 2 128 - 1)
  (ofRandom (BitVec.ofNat 128 n), gen)

/-- Why a text is no identifier. -/
inductive Malformed where
  | character (c : Char) (place : Nat)
  | plainLength (n : Nat)
  | groupCount (n : Nat)
  | groupLength (group expected found : Nat)
  deriving DecidableEq, Repr

def Malformed.message : Malformed → String
  | .character c place =>
    "invalid character: expected an optional prefix of `urn:uuid:` followed by [0-9a-fA-F-], found `"
      ++ c.toString ++ "` at " ++ toString place
  | .plainLength n => "invalid length: expected length 32 for simple format, found " ++ toString n
  | .groupCount n => "invalid group count: expected 5, found " ++ toString n
  | .groupLength group expected found =>
    "invalid group length in group " ++ toString group ++ ": expected " ++ toString expected
      ++ ", found " ++ toString found

/-- A text without the wrapping it may have, with the length of what was dropped before it. -/
def unwrap (s : List Char) : Option (Nat × List Char) :=
  if "urn:uuid:".toList.isPrefixOf s then some (9, s.drop 9)
  else if s.head? = some '\x7b' ∧ s.getLast? = some '\x7d' ∧ 2 ≤ s.length then
    some (1, (s.drop 1).dropLast)
  else none

/-- The groups of a text, cut at its hyphens. -/
def groups (s : List Char) : List (List Char) := s.splitOn '-'

/-- The first character that is neither a digit nor a hyphen, with its byte index. -/
def stray? : Nat → List Char → Option (Char × Nat)
  | _, [] => none
  | place, c :: rest =>
    if c = '-' ∨ (Text.hexValue? c).isSome then stray? (place + c.utf8Size) rest
    else some (c, place)

/-- The first group whose length is wrong. -/
def misfit? : Nat → List Nat → List (List Char) → Option Malformed
  | i, n :: lengths, g :: rest =>
    if g.length = n then misfit? (i + 1) lengths rest else some (.groupLength i n g.length)
  | _, _, _ => none

/-- What is wrong with a text. -/
def complaint (s : List Char) : Malformed :=
  let (offset, wrapped, body) :=
    match unwrap s with
    | some (offset, body) => (offset, true, body)
    | none => (0, false, s)
  match stray? 0 body with
  | some (c, place) => .character c (place + offset + 1)
  | none =>
    let found := (groups body).length
    if found = 1 ∧ !wrapped then .plainLength (s.length)
    else if found ≠ 5 then .groupCount found
    else (misfit? 0 groupLengths (groups body)).getD (.groupCount found)

/-- The number of a hyphenated text. -/
def hyphenated? (s : List Char) : Option Nat :=
  let parts := groups s
  if parts.map List.length = groupLengths then Text.hexNumber? parts.flatten else none

/-- Reads 32 digits in groups or without hyphens; groups may be in braces or follow `urn:uuid:`. -/
def parse (text : String) : Except Malformed RectId :=
  let s := text.toList
  let number :=
    if s.length = 32 then Text.hexNumber? s
    else
      match unwrap s with
      | some (_, body) => hyphenated? body
      | none => hyphenated? s
  match number with
  | some n => .ok ⟨BitVec.ofNat 128 n⟩
  | none => .error (complaint s)

end RectId

end Widgetry
