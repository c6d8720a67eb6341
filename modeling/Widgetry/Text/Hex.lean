/-!
# Hexadecimal digits

Reading accepts either case; writing uses lower case.
-/

namespace Widgetry.Text

/-- The value of a hexadecimal digit. -/
def hexValue? (c : Char) : Option Nat :=
  if '0' ≤ c ∧ c ≤ '9' then some (c.toNat - 48)
  else if 'a' ≤ c ∧ c ≤ 'f' then some (c.toNat - 87)
  else if 'A' ≤ c ∧ c ≤ 'F' then some (c.toNat - 55)
  else none

/-- The number that a text of hexadecimal digits stands for. -/
def hexNumber? (s : List Char) : Option Nat :=
  s.foldlM (fun n c => (hexValue? c).map (16 * n + ·)) 0

/-- Whether a character is a hexadecimal digit. -/
def isHexDigit (c : Char) : Bool :=
  ('0' ≤ c && c ≤ '9') || ('a' ≤ c && c ≤ 'f') || ('A' ≤ c && c ≤ 'F')

/-- The byte that hexadecimal digits stand for. There is at least one, and a plus sign may stand
before them. -/
def byteOfHex? (s : List Char) : Option UInt8 :=
  let digits :=
    match s with
    | '+' :: rest => rest
    | _ => s
  if digits.isEmpty then none
  else (hexNumber? digits).bind fun n => if n < 256 then some n.toUInt8 else none

/-- The lowest `width` hexadecimal digits of a number. -/
def hexDigits : Nat → Nat → List Char
  | 0, _ => []
  | width + 1, n => hexDigits width (n / 16) ++ [Nat.digitChar (n % 16)]

/-- The two digits of a byte. -/
def hexByte (b : UInt8) : List Char := hexDigits 2 b.toNat

end Widgetry.Text
