import Widgetry.Json.Fault

/-!
# Readers

A reader consumes a text from the left and keeps what is left of it also when it fails, because
the place of some problems is where the surrounding list or object ends.
-/

namespace Widgetry.Json

/-- A computation on the text that is left. -/
abbrev Reader (α : Type) : Type := EStateM Fault (List Char) α

namespace Reader

variable {α : Type}

/-- Fails at this place. -/
def failHere (p : Problem) : Reader α := fun s => .error ⟨p, some ⟨s, 0⟩⟩ s

/-- Fails one byte further on, or here at the end of the text. -/
def failNext (p : Problem) : Reader α := fun s => .error ⟨p, some ⟨s, 1⟩⟩ s

/-- Fails at a place that is settled later. -/
def failLater (p : Problem) : Reader α := fun s => .error ⟨p, none⟩ s

/-- Settles the place of a failure here. -/
def settled (r : Reader α) : Reader α := fun s =>
  match r s with
  | .error ⟨p, none⟩ rest => .error ⟨p, some ⟨rest, 0⟩⟩ rest
  | result => result

/-- Reads a body and then its closing mark. The mark is looked for after a failure as well, but
the body's failure is the one that counts. -/
def closedBy (body : Reader α) (close : Reader Unit) : Reader α := fun s =>
  match body s with
  | .ok a rest =>
    match close rest with
    | .ok _ rest => .ok a rest
    | .error f rest => .error f rest
  | .error f rest =>
    match close rest with
    | .ok _ rest => .error f rest
    | .error _ rest => .error f rest

/-- Whether a character may stand between the parts of a text. -/
def isSpace (c : Char) : Bool := c = ' ' || c = '\n' || c = '\t' || c = '\r'

/-- The next character that is no space; it is left in the text. -/
def peek : Reader (Option Char) := fun s =>
  let rest := s.dropWhile isSpace
  .ok rest.head? rest

/-- Drops a character. -/
def advance : Reader Unit := fun s => .ok () s.tail

/-- How much text is left; no loop over the text takes more steps. -/
def fuel : Reader Nat := fun s => .ok (s.length + 1) s

/-- Reads the given letters. -/
def word : List Char → Reader Unit
  | [] => pure ()
  | c :: letters => fun s =>
    match s with
    | [] => failHere .endInValue s
    | d :: rest => if c = d then word letters rest else failNext .expectedWord s

/-- The colon between a key and its value. -/
def colon : Reader Unit := do
  match ← peek with
  | some ':' => advance
  | some _ => failNext .expectedColon
  | none => failNext .endInObject

/-- The bracket that ends a list which has no room for more elements. -/
def closeList : Reader Unit := do
  match ← peek with
  | some ']' => advance
  | some ',' =>
    advance
    match ← peek with
    | some ']' => failNext .trailingComma
    | _ => failNext .trailingText
  | some _ => failNext .trailingText
  | none => failNext .endInList

/-- The brace that ends an object. -/
def closeObject : Reader Unit := do
  match ← peek with
  | some '\x7d' => advance
  | some ',' => failNext .trailingComma
  | some _ => failNext .trailingText
  | none => failNext .endInObject

/-- Whether a list goes on, with the comma before the next element read. -/
def hasElement (first : Bool) : Reader Bool := do
  match ← peek with
  | none => failNext .endInList
  | some ']' => return false
  | some ',' =>
    if first then return true
    else
      advance
      match ← peek with
      | some ']' => failNext .trailingComma
      | some _ => return true
      | none => failNext .endInValue
  | some _ => if first then return true else failNext .expectedListEnd

/-- Whether an object goes on, with the comma before the next key read; the next key is then a
string. -/
def hasKey (first : Bool) : Reader Bool := do
  match ← peek with
  | none => failNext .endInObject
  | some '\x7d' => return false
  | some '"' => if first then return true else failNext .expectedObjectEnd
  | some ',' =>
    if first then failNext .keyNotString
    else
      advance
      match ← peek with
      | some '"' => return true
      | some '\x7d' => failNext .trailingComma
      | some _ => failNext .keyNotString
      | none => failNext .endInValue
  | some _ => if first then failNext .keyNotString else failNext .expectedObjectEnd

/-- Nothing but space may follow. -/
def finish : Reader Unit := do
  match ← peek with
  | some _ => failNext .trailingText
  | none => return ()

end Reader

end Widgetry.Json
