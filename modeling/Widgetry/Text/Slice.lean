/-!
# Texts by bytes

A character takes one to four bytes. A text can be cut at a byte offset only where a character
ends.
-/

namespace Widgetry.Text

/-- How many bytes a text takes. -/
def byteSize : List Char → Nat
  | [] => 0
  | c :: s => c.utf8Size + byteSize s

/-- The parts before and after a byte offset; nothing if the offset is past the end or inside a
character. -/
def cut? : Nat → List Char → Option (List Char × List Char)
  | 0, s => some ([], s)
  | _ + 1, [] => none
  | n + 1, c :: s =>
    if c.utf8Size ≤ n + 1 then
      (cut? (n + 1 - c.utf8Size) s).map fun (before, after) => (c :: before, after)
    else none

/-- The `size` bytes of a text from an offset on. -/
def slice? (offset size : Nat) (s : List Char) : Option (List Char) := do
  let (_, rest) ← cut? offset s
  let (slice, _) ← cut? size rest
  return slice

end Widgetry.Text
