import Widgetry.Number.Binary

/-!
# Shortest decimal digits

A positive value `m · 2^e` of a binary format owns the interval of reals that round to it. Its
shortest decimal is a multiple of the largest power of ten that has a multiple in that interval.
`shortest` walks the powers of ten downwards and looks at the two multiples around the value on
each.
-/

namespace Widgetry.Number

/-- A decimal `digits · 10^exponent`. -/
structure Decimal where
  digits : Nat
  exponent : Int
  deriving DecidableEq, Repr

/-- The reals that round to a value, in quarters of its last binary digit: the value is `centre ·
2^scale` and the interval's ends are `below` and `above` away. -/
structure Interval where
  centre : Nat
  scale : Int
  below : Nat
  above : Nat
  closed : Bool

/-- The interval of `m · 2^e`. The neighbour below a power of two is only half as far away, unless
the power is the smallest normal number. The ends belong to an even significand. -/
def Format.interval (f : Format) (m : Nat) (e : Int) : Interval where
  centre := 4 * m
  scale := e - 2
  below := if m = Nat.pow 2 f.fractionBits && f.minExponent < e then 1 else 2
  above := 2
  closed := m % 2 == 0

namespace Interval

/-- Binary and decimal scales brought to a common denominator: `unit` quarters of the interval and
`step` multiples of `10^k` are counted in the same unit. -/
def commonScale (i : Interval) (k : Int) : Nat × Nat :=
  (Nat.pow 2 i.scale.toNat * Nat.pow 10 (-k).toNat,
    Nat.pow 10 k.toNat * Nat.pow 2 (-i.scale).toNat)

/-- Whether `d · 10^k` lies in the interval. -/
def holds (i : Interval) (d : Nat) (k : Int) : Bool :=
  let (unit, step) := i.commonScale k
  let point := d * step
  let low := (i.centre - i.below) * unit
  let high := (i.centre + i.above) * unit
  if i.closed then low ≤ point && point ≤ high else low < point && point < high

/-- The multiple of `10^k` at or below the value. -/
def floorAt (i : Interval) (k : Int) : Nat :=
  let (unit, step) := i.commonScale k
  i.centre * unit / step

/-- Whether `d · 10^k` is nearer to the value than `(d + 1) · 10^k`; a tie goes to the even one. -/
def lowerIsNearer (i : Interval) (d : Nat) (k : Int) : Bool :=
  let (unit, step) := i.commonScale k
  let value := 2 * (i.centre * unit)
  let middle := (2 * d + 1) * step
  value < middle || (value == middle && d % 2 == 0)

/-- The multiple of `10^k` in the interval that is nearest to the value. -/
def hit? (i : Interval) (k : Int) : Option Nat :=
  let d := i.floorAt k
  match i.holds d k, i.holds (d + 1) k with
  | true, true => some (if i.lowerIsNearer d k then d else d + 1)
  | true, false => some d
  | false, true => some (d + 1)
  | false, false => none

/-- The first hit on the powers of ten from `10^k` downwards. -/
def search (i : Interval) : Nat → Int → Option Decimal
  | 0, _ => none
  | fuel + 1, k =>
    match i.hit? k with
    | some d => some ⟨d, k⟩
    | none => i.search fuel (k - 1)

end Interval

/-- The shortest decimal that reads back as `m · 2^e`, the nearest one of those. The search starts
above the value, since `2^10 > 10^3`, and ends by `10^(e - 2)`, which is finer than the interval.
-/
def Format.shortest (f : Format) (m : Nat) (e : Int) : Decimal :=
  let start := ((m.log2 + 1 : Nat) + e).toNat * 31 / 100 + 1
  let i := f.interval m e
  (i.search (start + e.natAbs + 3) start).getD ⟨m * Nat.pow 2 e.toNat, 0⟩

end Widgetry.Number
