/-!
# Blanks

The characters with the Unicode property White_Space, and the removal of those at both ends of a
text.
-/

namespace Widgetry.Text

/-- The characters that count as blank. -/
def blanks : List Nat :=
  [0x9, 0xa, 0xb, 0xc, 0xd, 0x20, 0x85, 0xa0, 0x1680, 0x2000, 0x2001, 0x2002, 0x2003, 0x2004,
    0x2005, 0x2006, 0x2007, 0x2008, 0x2009, 0x200a, 0x2028, 0x2029, 0x202f, 0x205f, 0x3000]

example : blanks.length = 25 ∧ blanks.Pairwise (· < ·) := by decide

/-- Whether a character is blank. -/
def isBlank (c : Char) : Bool := blanks.contains c.toNat

/-- A text without the blanks it starts with. -/
def trimLeft (s : List Char) : List Char := s.dropWhile isBlank

/-- A text without the blanks at its ends. -/
def trim (s : List Char) : List Char := (trimLeft (trimLeft s).reverse).reverse

end Widgetry.Text
