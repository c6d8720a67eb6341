import Widgetry.Json.Quote

/-!
# Written JSON

A document is what is going to be written: its numbers have their text already. It is laid out on
one line or with one member or element per line.
-/

namespace Widgetry.Json

inductive Document where
  | null
  | number (text : List Char)
  | string (s : String)
  | list (items : List Document)
  | object (members : List (String × Document))

namespace Document

/-- A single precision number; what is no number is written as `null`. -/
def single (x : Float32) : Document :=
  match Number.Layout.single.text? Number.binary32 (Number.unpack32 x) with
  | some text => .number text
  | none => .null

def natural (n : Nat) : Document := .number (Nat.toDigits 10 n)

mutual

/-- The text on one line, without spaces. -/
def compact : Document → List Char
  | .null => ['n', 'u', 'l', 'l']
  | .number text => text
  | .string s => writtenString s
  | .list items => '[' :: (compactItems items ++ [']'])
  | .object members => '\x7b' :: (compactMembers members ++ ['\x7d'])

/-- Elements with commas between them. -/
def compactItems : List Document → List Char
  | [] => []
  | [d] => compact d
  | d :: rest => compact d ++ ',' :: compactItems rest

/-- Members with commas between them. -/
def compactMembers : List (String × Document) → List Char
  | [] => []
  | [(key, d)] => writtenString key ++ ':' :: compact d
  | (key, d) :: rest => writtenString key ++ ':' :: (compact d ++ ',' :: compactMembers rest)

end

/-- A new line with two spaces per level. -/
def newline (level : Nat) : List Char := '\n' :: List.replicate (2 * level) ' '

mutual

/-- The text over several lines, inside the given number of levels. -/
def pretty (level : Nat) : Document → List Char
  | .null => ['n', 'u', 'l', 'l']
  | .number text => text
  | .string s => writtenString s
  | .list [] => ['[', ']']
  | .list (d :: rest) =>
    '[' :: (newline (level + 1) ++ pretty (level + 1) d ++ prettyItems (level + 1) rest
      ++ newline level ++ [']'])
  | .object [] => ['\x7b', '\x7d']
  | .object ((key, d) :: rest) =>
    '\x7b' :: (newline (level + 1) ++ writtenString key ++ [':', ' '] ++ pretty (level + 1) d
      ++ prettyMembers (level + 1) rest ++ newline level ++ ['\x7d'])

/-- Further elements, each after a comma. -/
def prettyItems (level : Nat) : List Document → List Char
  | [] => []
  | d :: rest => ',' :: (newline level ++ pretty level d ++ prettyItems level rest)

/-- Further members, each after a comma. -/
def prettyMembers (level : Nat) : List (String × Document) → List Char
  | [] => []
  | (key, d) :: rest =>
    ',' :: (newline level ++ writtenString key ++ [':', ' '] ++ pretty level d
      ++ prettyMembers level rest)

end

end Document

end Widgetry.Json
