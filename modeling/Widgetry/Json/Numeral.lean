import Widgetry.Json.Reader

/-!
# Numbers in JSON texts

An integer of at most 64 bits is kept as it is. Any other number is a 64-bit significand times a
power of ten, in one rounding at double precision: digits that no longer fit the significand are
dropped, and count only before the point.
-/

namespace Widgetry.Json

/-- A number of a text. -/
inductive Numeral where
  | integer (n : Int)
  | real (x : Float)

namespace Numeral

/-- The number at single precision. -/
def toFloat32 : Numeral → Float32
  | .integer (.ofNat n) => n.toUInt64.toFloat32
  | .integer (.negSucc n) => -((n + 1).toUInt64.toFloat32)
  | .real x => Number.narrow x

/-- The form in which messages show it. -/
def found : Numeral → Found
  | .integer n => .integer n
  | .real x => .real x

/-- The value of a decimal digit. -/
def digit? (c : Char) : Option Nat := if '0' ≤ c ∧ c ≤ '9' then some (c.toNat - 48) else none

def isDigit (c : Char) : Bool := (digit? c).isSome

/-- Appends digits to a significand while it stays below a limit. Gives the result, the number of
digits taken and what is left. -/
def gather (limit : Nat) (significand : Nat) : List Char → Nat × Nat × List Char
  | [] => (significand, 0, [])
  | c :: rest =>
    match digit? c with
    | some d =>
      if 10 * significand + d < limit then
        let (result, taken, left) := gather limit (10 * significand + d) rest
        (result, taken + 1, left)
      else (significand, 0, c :: rest)
    | none => (significand, 0, c :: rest)

/-- The digits at the start of a text that are dropped, counted, and what is left. -/
def dropDigits (s : List Char) : Nat × List Char :=
  ((s.takeWhile isDigit).length, s.dropWhile isDigit)

/-- Significands have 64 bits. -/
def significandLimit : Nat := Nat.pow 2 64

/-- Exponents have 31 bits and a sign. -/
def exponentLimit : Nat := Nat.pow 2 31

/-- The greatest exponent of a power of ten that is no infinity. -/
def topPower : Nat := 308

def powerOfTen (k : Nat) : Float := Float.ofScientific 1 false k

/-- `x / 10^k`; a power beyond the greatest is divided off in parts, of which two reach zero. -/
def divide : Nat → Float → Nat → Float
  | 0, x, _ => x
  | parts + 1, x, k =>
    if k ≤ topPower then x / powerOfTen k
    else if x == 0 then x
    else divide parts (x / powerOfTen topPower) (k - topPower)

/-- `x · 10^k`, unless that is too large. -/
def multiply? (x : Float) (k : Nat) : Option Float :=
  if k ≤ topPower then
    let product := x * powerOfTen k
    if product.isInf then none else some product
  else if x == 0 then some x
  else none

/-- The double precision number `±significand · 10^exponent`, unless it is too large. -/
def real? (negative : Bool) (significand : Nat) (exponent : Int) : Option Float :=
  let x := significand.toUInt64.toFloat
  let magnitude :=
    match exponent with
    | .ofNat k => multiply? x k
    | .negSucc k => some (divide 4 x (k + 1))
  magnitude.map fun m => if negative then -m else m

end Numeral

namespace Reader

open Numeral

/-- The number with the parts read so far. -/
def real (negative : Bool) (significand : Nat) (exponent : Int) : Reader Numeral :=
  match real? negative significand exponent with
  | some x => return .real x
  | none => failHere .numberRange

/-- Reads the digits of an exponent. One that is too large makes zero of a number that is zero or
whose exponent is negative. -/
def exponentDigits (negative : Bool) (significand : Nat) (start : Int) (below : Bool) :
    Reader Numeral :=
  fun s =>
    match s with
    | [] => failHere .endInValue s
    | c :: _ =>
      if isDigit c then
        let (e, _, rest) := gather exponentLimit 0 s
        match rest with
        | d :: further =>
          if isDigit d then
            if significand ≠ 0 && !below then failHere .numberRange further
            else .ok (.real (if negative then -0.0 else 0.0)) (further.dropWhile isDigit)
          else real negative significand (if below then start - e else start + e) rest
        | [] => real negative significand (if below then start - e else start + e) rest
      else failNext .badNumber s

/-- Reads an exponent after its letter. -/
def exponentPart (negative : Bool) (significand : Nat) (start : Int) : Reader Numeral := fun s =>
  match s with
  | '+' :: rest => exponentDigits negative significand start false rest
  | '-' :: rest => exponentDigits negative significand start true rest
  | _ => exponentDigits negative significand start false s

/-- Reads what may follow the digits of a number that is no integer any more. -/
def exponentIfAny (negative : Bool) (significand : Nat) (exponent : Int) : Reader Numeral :=
  fun s =>
  match s with
  | 'e' :: rest => exponentPart negative significand exponent rest
  | 'E' :: rest => exponentPart negative significand exponent rest
  | _ => real negative significand exponent s

/-- Reads a fraction after its point. -/
def fraction (negative : Bool) (significand : Nat) (exponent : Int) : Reader Numeral := fun s =>
  match s with
  | [] => failHere .endInValue s
  | c :: _ =>
    if isDigit c then
      let (result, taken, rest) := gather significandLimit significand s
      exponentIfAny negative result (exponent - taken) (rest.dropWhile isDigit)
    else failNext .badNumber s

/-- An integer as far as it was read; a negative one needs a sign bit, and zero cannot carry a
sign. -/
def integer (negative : Bool) (significand : Nat) : Numeral :=
  if negative then
    if significand = 0 ∨ Nat.pow 2 63 < significand then .real (-(significand.toUInt64.toFloat))
    else .integer (-(significand : Int))
  else .integer significand

/-- Reads what follows the integer digits. -/
def afterInteger (negative : Bool) (significand : Nat) : Reader Numeral := fun s =>
  match s with
  | '.' :: rest => fraction negative significand 0 rest
  | 'e' :: rest => exponentPart negative significand 0 rest
  | 'E' :: rest => exponentPart negative significand 0 rest
  | c :: _ =>
    if isDigit c then
      let (dropped, rest) := dropDigits s
      match rest with
      | '.' :: rest => fraction negative significand dropped rest
      | _ => exponentIfAny negative significand dropped rest
    else .ok (integer negative significand) s
  | [] => .ok (integer negative significand) s

/-- Reads a number after its sign. -/
def unsigned (negative : Bool) : Reader Numeral := fun s =>
  match s with
  | [] => failHere .endInValue s
  | '0' :: rest =>
    match rest with
    | c :: _ => if isDigit c then failNext .badNumber rest else afterInteger negative 0 rest
    | [] => afterInteger negative 0 rest
  | c :: _ =>
    if isDigit c then
      let (significand, _, rest) := gather significandLimit 0 s
      afterInteger negative significand rest
    else failNext .badNumber s

/-- Reads a number. -/
def numeral : Reader Numeral := fun s =>
  match s with
  | '-' :: rest => unsigned true rest
  | _ => unsigned false s

/-- Passes over digits, of which there must be one. -/
def passDigits (missing : Reader Unit) : Reader Unit := fun s =>
  match s with
  | c :: _ => if isDigit c then .ok () (s.dropWhile isDigit) else missing s
  | [] => missing s

/-- Passes over an exponent after its letter. -/
def passExponent : Reader Unit := fun s =>
  match s with
  | '+' :: rest => passDigits (failNext .badNumber) rest
  | '-' :: rest => passDigits (failNext .badNumber) rest
  | _ => passDigits (failNext .badNumber) s

/-- Passes over what may follow the integer digits. -/
def passTail : Reader Unit := fun s =>
  match s with
  | '.' :: rest =>
    (do passDigits (failNext .badNumber)
        fun s =>
          match s with
          | 'e' :: rest => passExponent rest
          | 'E' :: rest => passExponent rest
          | _ => .ok () s : Reader Unit) rest
  | 'e' :: rest => passExponent rest
  | 'E' :: rest => passExponent rest
  | _ => .ok () s

/-- Passes over a number after its sign, whatever its size. -/
def passUnsigned : Reader Unit := fun s =>
  match s with
  | '0' :: rest =>
    match rest with
    | c :: _ => if isDigit c then failNext .badNumber rest else passTail rest
    | [] => .ok () rest
  | _ => (do passDigits (failNext .badNumber); passTail : Reader Unit) s

/-- Passes over a number. -/
def passNumeral : Reader Unit := fun s =>
  match s with
  | '-' :: rest => passUnsigned rest
  | _ => passUnsigned s

end Reader

end Widgetry.Json
