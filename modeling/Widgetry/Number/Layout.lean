import Widgetry.Number.Shortest

/-!
# Number text

Decimals are written in plain form while the exponent of their first digit lies in a range that
the place of use chooses, and with an explicit exponent outside it.
-/

namespace Widgetry.Number

/-- Range of first-digit exponents that are written in plain form. -/
structure Layout where
  least : Int
  greatest : Int

namespace Layout

/-- Single precision numbers in files. -/
def single : Layout := ⟨-6, 12⟩

/-- Double precision numbers in messages. -/
def double : Layout := ⟨-5, 15⟩

/-- A point between the first digit and the others, if there are others. -/
def pointed : List Char → List Char
  | [] => []
  | [d] => [d]
  | d :: rest => d :: '.' :: rest

/-- The text of a positive decimal. Plain form has at least one digit after the point; an exponent
always has a sign and is not padded. -/
def decimal (layout : Layout) (value : Decimal) : List Char :=
  let digits := Nat.toDigits 10 value.digits
  let first := value.exponent + (digits.length : Nat) - 1
  if layout.least ≤ first ∧ first ≤ layout.greatest then
    if 0 ≤ value.exponent then
      digits ++ List.replicate value.exponent.toNat '0' ++ ['.', '0']
    else if 0 ≤ first then
      digits.take (first.toNat + 1) ++ '.' :: digits.drop (first.toNat + 1)
    else
      ['0', '.'] ++ List.replicate (-first - 1).toNat '0' ++ digits
  else
    pointed digits ++ 'e' :: (if first < 0 then '-' else '+') :: Nat.toDigits 10 first.natAbs

/-- The text of a number; infinities and non-numbers have none. -/
def text? (layout : Layout) (f : Format) : Unpacked → Option (List Char)
  | .finite negative m e =>
    let magnitude := if m = 0 then ['0', '.', '0'] else layout.decimal (f.shortest m e)
    some (if negative then '-' :: magnitude else magnitude)
  | _ => none

example : single.text? binary32 (unpack32 1) = some ['1', '.', '0'] := by decide +kernel

example : single.text? binary32 (unpack32 1e13) = some ['1', 'e', '+', '1', '3'] := by
  decide +kernel

example : single.text? binary32 (unpack32 1e-7) = some ['1', 'e', '-', '7'] := by decide +kernel

example : single.text? binary32 (unpack32 (-0.0)) = some ['-', '0', '.', '0'] := by decide +kernel

end Layout

end Widgetry.Number
