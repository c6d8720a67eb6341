/-!
# Binary interchange formats

A bit pattern of a binary format stands for a signed multiple of a power of two, an infinity or no
number at all. `Format.decode` reads a pattern exactly, `Format.encode` gives the pattern nearest
to an exact value, a tie going to the even significand. Everything is natural number arithmetic,
so the conversions between single and double precision can be evaluated inside a proof.
-/

namespace Widgetry.Number

/-- Widths of a format: significand digits, the hidden one included, and exponent field. -/
structure Format where
  precision : Nat
  exponentBits : Nat

/-- Single precision. -/
def binary32 : Format := ⟨24, 8⟩

/-- Double precision. -/
def binary64 : Format := ⟨53, 11⟩

/-- What a bit pattern stands for; `finite negative m e` is `±m · 2^e`. -/
inductive Unpacked where
  | nan
  | infinite (negative : Bool)
  | finite (negative : Bool) (significand : Nat) (exponent : Int)
  deriving DecidableEq, Repr

/-- The quotient `n / 2^k` rounded to the nearest natural, a half going to the even one. -/
def shiftRightEven (n k : Nat) : Nat :=
  let whole := Nat.pow 2 k
  let quotient := n / whole
  let twice := 2 * (n % whole)
  if twice > whole || (twice == whole && quotient % 2 == 1) then quotient + 1 else quotient

/-- The value `m · 2^e` rounded to the nearest natural, a half going up. -/
def roundHalfUp (m : Nat) (e : Int) : Nat :=
  match e with
  | .ofNat k => m * Nat.pow 2 k
  | .negSucc k => (m + Nat.pow 2 k) / Nat.pow 2 (k + 1)

namespace Format

/-- Digits stored in a pattern, the hidden one left out. -/
def fractionBits (f : Format) : Nat := f.precision - 1

/-- The exponent field that marks infinities and non-numbers. -/
def topField (f : Format) : Nat := Nat.pow 2 f.exponentBits - 1

/-- The exponent of the last digit of the smallest positive value. -/
def minExponent (f : Format) : Int :=
  2 - (Nat.pow 2 (f.exponentBits - 1) : Nat) - (f.fractionBits : Nat)

/-- The sign bit of a negative pattern. -/
def signBit (f : Format) (negative : Bool) : Nat :=
  if negative then Nat.pow 2 (f.exponentBits + f.fractionBits) else 0

/-- Reads a bit pattern. -/
def decode (f : Format) (bits : Nat) : Unpacked :=
  let fraction := bits % Nat.pow 2 f.fractionBits
  let field := bits / Nat.pow 2 f.fractionBits % Nat.pow 2 f.exponentBits
  let negative := bits / Nat.pow 2 (f.exponentBits + f.fractionBits) % 2 == 1
  if field = f.topField then
    if fraction = 0 then .infinite negative else .nan
  else if field = 0 then .finite negative fraction f.minExponent
  else .finite negative (fraction + Nat.pow 2 f.fractionBits)
    (f.minExponent + (field - 1 : Nat))

/-- The pattern of the magnitude nearest to `m · 2^e`, a tie going to the even significand; a
value that would need a larger exponent becomes infinite. -/
def magnitude (f : Format) (m : Nat) (e : Int) : Nat :=
  if m = 0 then 0
  else
    let last := max (e + (m.log2 + 1 : Nat) - (f.precision : Nat)) f.minExponent
    let digits :=
      match last - e with
      | .ofNat k => shiftRightEven m k
      | .negSucc k => m * Nat.pow 2 (k + 1)
    let bits := (last - f.minExponent).toNat * Nat.pow 2 f.fractionBits + digits
    min bits (f.topField * Nat.pow 2 f.fractionBits)

/-- The pattern of the value nearest to an unpacked one. -/
def encode (f : Format) : Unpacked → Nat
  | .nan => f.topField * Nat.pow 2 f.fractionBits + Nat.pow 2 (f.fractionBits - 1)
  | .infinite negative => f.signBit negative + f.topField * Nat.pow 2 f.fractionBits
  | .finite negative m e => f.signBit negative + f.magnitude m e

end Format

/-- A single precision number as an exact value. -/
def unpack32 (x : Float32) : Unpacked := binary32.decode x.toBits.toNat

/-- A double precision number as an exact value. -/
def unpack64 (x : Float) : Unpacked := binary64.decode x.toBits.toNat

/-- The single precision number nearest to a double precision one. -/
def narrow (x : Float) : Float32 := Float32.ofBits (binary32.encode (unpack64 x)).toUInt32

/-- A single precision number at double precision, without loss. -/
def widen (x : Float32) : Float := Float.ofBits (binary64.encode (unpack32 x)).toUInt64

/-- Whether a number is neither infinite nor a non-number. -/
def isFinite (x : Float32) : Bool :=
  match unpack32 x with
  | .finite _ _ _ => true
  | _ => false

/-- `x` kept between `low` and `high`; a non-number stays one. -/
def clamp (x low high : Float32) : Float32 :=
  let atLeast := if x < low then low else x
  if atLeast > high then high else atLeast

/-- The nearest byte, a half going up; what lies outside a byte's range goes to its nearer end and
a non-number to zero. -/
def toByte (x : Float32) : UInt8 :=
  match unpack32 x with
  | .nan => 0
  | .infinite negative => if negative then 0 else 255
  | .finite negative m e => if negative then 0 else (min (roundHalfUp m e) 255).toUInt8

end Widgetry.Number
