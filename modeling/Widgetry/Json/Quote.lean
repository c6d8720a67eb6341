import Widgetry.Json.Reader
import Widgetry.Text.Hex

/-!
# Strings in JSON texts

Reading understands every escape and joins surrogate pairs. Writing escapes the quote, the
backslash and the control characters only.
-/

namespace Widgetry.Json

namespace Reader

/-- The four digits of a numbered escape. Four bytes are taken together, whatever they are. -/
def hexEscape : Reader Nat := fun s =>
  if (bytesOf (s.take 4)).length < 4 then failHere .endInString []
  else
    match Text.hexNumber? (s.take 4) with
    | some n => .ok n (s.drop 4)
    | none => .error ⟨.badEscape, some ⟨s, 4⟩⟩ s

/-- Reads a character that must follow, as part of a surrogate pair. -/
def pairMark (c : Char) : Reader Unit := fun s =>
  match s with
  | [] => failHere .endInString s
  | d :: rest => if c = d then .ok () rest else failNext .brokenPair s

/-- Reads a numbered escape after its letter, and a second one if the first is half of a pair. -/
def numberedEscape : Reader Char := do
  let n ← hexEscape
  if 0xdc00 ≤ n ∧ n ≤ 0xdfff then failHere .loneSurrogate
  else if n < 0xd800 ∨ 0xdbff < n then return Char.ofNat n
  else
    pairMark '\\'
    pairMark 'u'
    let m ← hexEscape
    if 0xdc00 ≤ m ∧ m ≤ 0xdfff then
      return Char.ofNat (0x10000 + (n - 0xd800) * 0x400 + (m - 0xdc00))
    else failHere .loneSurrogate

/-- The character that a letter after a backslash stands for. -/
def letterEscape? : Char → Option Char
  | '"' => some '"'
  | '\\' => some '\\'
  | '/' => some '/'
  | 'b' => some '\x08'
  | 'f' => some '\x0c'
  | 'n' => some '\n'
  | 'r' => some '\r'
  | 't' => some '\t'
  | _ => none

/-- Reads an escape after its backslash. -/
def escape : Reader Char := fun s =>
  match s with
  | [] => failHere .endInString s
  | 'u' :: rest => numberedEscape rest
  | c :: rest =>
    match letterEscape? c with
    | some d => .ok d rest
    | none => failNext .badEscape s

/-- Reads the characters of a string up to its closing quote. -/
def stringRest : Nat → Reader (List Char)
  | 0 => failHere .endInString
  | fuel + 1 => fun s =>
    match s with
    | [] => failHere .endInString s
    | '"' :: rest => .ok [] rest
    | '\\' :: rest =>
      (do let c ← escape
          let cs ← stringRest fuel
          return c :: cs : Reader (List Char)) rest
    | c :: rest =>
      if c < ' ' then failNext .controlCharacter s
      else
        (do let cs ← stringRest fuel
            return c :: cs : Reader (List Char)) rest

/-- Reads a string after its opening quote. -/
def string : Reader String := do
  let steps ← fuel
  return String.ofList (← stringRest steps)

/-- Passes over an escape after its backslash; surrogates need not pair. -/
def passEscape : Reader Unit := fun s =>
  match s with
  | [] => failHere .endInString s
  | 'u' :: rest => (do let _ ← hexEscape; return () : Reader Unit) rest
  | c :: rest => if (letterEscape? c).isSome then .ok () rest else failNext .badEscape s

/-- Passes over a string up to its closing quote. -/
def passStringRest : Nat → Reader Unit
  | 0 => failHere .endInString
  | fuel + 1 => fun s =>
    match s with
    | [] => failHere .endInString s
    | '"' :: rest => .ok () rest
    | '\\' :: rest => (do passEscape; passStringRest fuel : Reader Unit) rest
    | c :: rest => if c < ' ' then failHere .controlCharacter s else passStringRest fuel rest

/-- Passes over a string after its opening quote. -/
def passString : Reader Unit := do
  let steps ← fuel
  passStringRest steps

/-- Reads the next key of an object, if there is one. -/
def nextKey (first : Bool) : Reader (Option String) := do
  if ← hasKey first then
    advance
    return some (← string)
  else return none

end Reader

/-- The written form of one character of a string. -/
def writtenChar (c : Char) : List Char :=
  if c = '"' ∨ c = '\\' then ['\\', c]
  else if c = '\x08' then ['\\', 'b']
  else if c = '\x0c' then ['\\', 'f']
  else if c = '\n' then ['\\', 'n']
  else if c = '\r' then ['\\', 'r']
  else if c = '\t' then ['\\', 't']
  else if c < ' ' then ['\\', 'u'] ++ Text.hexDigits 4 c.toNat
  else [c]

/-- The written form of a string. -/
def writtenString (s : String) : List Char := '"' :: (s.toList.flatMap writtenChar ++ ['"'])

end Widgetry.Json
