import Mathlib.Algebra.Order.Field.Power
import Mathlib.Data.Rat.Cast.Order
import Mathlib.Tactic.FieldSimp
import Mathlib.Tactic.Linarith
import Mathlib.Tactic.NormNum
import Mathlib.Tactic.Positivity
import Mathlib.Tactic.Ring

/-!
# Short decimals and binary midpoints

A decimal `d · 10^k` comes close to a multiple `n · 2^(e-1)` of a power of two only if `n / d` comes
close to `10^k / 2^(e-1)`. Two fractions that are neighbours have no fraction with a smaller
denominator between them, so a short list of neighbours around `10^k / 2^(e-1)` shows that every
`n / d` with small terms stays away from it. The list is computed and checked for each exponent of
single precision.
-/

namespace Widgetry.Number

structure Fraction where
  num : ℕ
  den : ℕ
  deriving DecidableEq

namespace Fraction

/-- Whether successive fractions are neighbours and leave no room for denominators up to `limit`. -/
def tight (limit : ℕ) : List Fraction → Bool
  | a :: b :: rest =>
    b.num * a.den == a.num * b.den + 1 && decide (limit < a.den + b.den) && tight limit (b :: rest)
  | _ => true

/-- A fraction between two neighbours has a denominator of at least the sum of theirs. -/
theorem den_of_between {a b : Fraction} {n d : ℕ} (h : b.num * a.den = a.num * b.den + 1)
    (ha : a.num * d < n * a.den) (hb : n * b.den < b.num * d) : a.den + b.den ≤ d := by
  obtain ⟨i, hi⟩ := Nat.exists_eq_add_of_lt ha
  obtain ⟨j, hj⟩ := Nat.exists_eq_add_of_lt hb
  have hd : d = a.den * (j + 1) + b.den * (i + 1) := by
    have hleft : b.num * a.den * d = a.den * (n * b.den + j + 1) := by rw [← hj]; ring
    have hright : b.den * (n * a.den) = b.den * (a.num * d + i + 1) := by rw [← hi]
    rw [h] at hleft
    linarith
  rw [hd]
  exact Nat.add_le_add (Nat.le_mul_of_pos_right _ (by omega)) (Nat.le_mul_of_pos_right _ (by omega))

/-- What lies between the ends of a tight list and has a small denominator is on the list. -/
theorem mem_of_tight {limit n d : ℕ} {high : Fraction} (hd : d ≤ limit)
    (hhigh : n * high.den < high.num * d) :
    ∀ (inner : List Fraction) (low : Fraction), tight limit (low :: (inner ++ [high])) = true →
      low.num * d < n * low.den → ∃ f ∈ inner, n * f.den = f.num * d
  | [], low, h, hlow => by
    simp only [List.nil_append, tight, Bool.and_true, Bool.and_eq_true, beq_iff_eq,
      decide_eq_true_eq] at h
    have := den_of_between h.1 hlow hhigh
    omega
  | f :: inner, low, h, hlow => by
    simp only [List.cons_append, tight, Bool.and_eq_true, beq_iff_eq, decide_eq_true_eq] at h
    obtain ⟨⟨hadjacent, hroom⟩, hrest⟩ := h
    rcases lt_trichotomy (n * f.den) (f.num * d) with hlt | heq | hgt
    · have := den_of_between hadjacent hlow hlt
      omega
    · exact ⟨f, List.mem_cons_self, heq⟩
    · obtain ⟨g, hg, heq⟩ := mem_of_tight hd hhigh inner f hrest hgt
      exact ⟨g, List.mem_cons_of_mem f hg, heq⟩

/-! ## Finding neighbours

Neighbours are found by narrowing a pair of them. Nothing is proved about the search, since what
it finds is checked with `tight`. -/

def advance (a b : Fraction) (t : ℕ) : Fraction := ⟨a.num + t * b.num, a.den + t * b.den⟩

/-- How often `s` fits into `r`, at most `room` times. -/
def steps (r s room : ℕ) : ℕ := if s = 0 then room else min (r / s) room

/-- Narrows neighbours around `x` until there is no room for denominators up to `limit`. -/
def walk (x : Fraction) (limit : ℕ) : ℕ → Fraction → Fraction → Fraction × Fraction
  | 0, low, high => (low, high)
  | fuel + 1, low, high =>
    if limit < low.den + high.den then (low, high)
    else
      let above := low.den * x.num - low.num * x.den
      let below := high.num * x.den - high.den * x.num
      if below ≤ above then
        x.walk limit fuel (low.advance high (steps above below ((limit - low.den) / high.den))) high
      else
        x.walk limit fuel low (high.advance low (steps below above ((limit - high.den) / low.den)))

/-- The neighbour of `a` on the other side than `b`. -/
def opposite (a b : Fraction) (limit : ℕ) : Fraction :=
  let t := (limit + b.den) / a.den
  ⟨t * a.num - b.num, t * a.den - b.den⟩

/-- Whether `f` is below every `n / d` that is `x` up to five parts in `2^54` of `x`. -/
def isBelow (x f : Fraction) : Bool := f.num * x.den * 2 ^ 54 < f.den * x.num * (2 ^ 54 - 5)

/-- Whether `f` is above every `n / d` that is `x` up to five parts in `2^54` of `x`. -/
def isAbove (x f : Fraction) : Bool := f.den * x.num * (2 ^ 54 + 5) < f.num * x.den * 2 ^ 54

theorem lt_of_isBelow {x f : Fraction} {n d : ℕ} (hd : 0 < d)
    (h : x.isBelow f = true) (hn : d * x.num * (2 ^ 54 - 5) ≤ n * x.den * 2 ^ 54) :
    f.num * d < n * f.den := by
  rw [isBelow, decide_eq_true_eq] at h
  have hlt : f.num * d * (x.den * 2 ^ 54) < n * f.den * (x.den * 2 ^ 54) := by
    have h1 := Nat.mul_lt_mul_of_pos_right h hd
    have h2 := Nat.mul_le_mul_left f.den hn
    linarith
  exact Nat.lt_of_mul_lt_mul_right hlt

theorem lt_of_isAbove {x f : Fraction} {n d : ℕ} (hd : 0 < d)
    (h : x.isAbove f = true) (hn : n * x.den * 2 ^ 54 ≤ d * x.num * (2 ^ 54 + 5)) :
    n * f.den < f.num * d := by
  rw [isAbove, decide_eq_true_eq] at h
  have hlt : n * f.den * (x.den * 2 ^ 54) < f.num * d * (x.den * 2 ^ 54) := by
    have h1 := Nat.mul_lt_mul_of_pos_right h hd
    have h2 := Nat.mul_le_mul_left f.den hn
    linarith
  exact Nat.lt_of_mul_lt_mul_right hlt

end Fraction

/-! ## Powers of ten over powers of two -/

/-- The fraction `10^k / 2^s`. -/
def ratio (s k : ℤ) : Fraction where
  num := 10 ^ k.toNat * 2 ^ (-s).toNat
  den := 2 ^ s.toNat * 10 ^ (-k).toNat

theorem pow_toNat {a : ℚ} (ha : a ≠ 0) (z : ℤ) : a ^ z.toNat = a ^ z * a ^ (-z).toNat := by
  rw [← zpow_natCast, ← zpow_natCast, ← zpow_add₀ ha]
  congr 1
  omega

theorem ratio_eq (s k : ℤ) : ∃ c : ℚ, 0 < c ∧ ((ratio s k).num : ℚ) = 10 ^ k * c ∧
    ((ratio s k).den : ℚ) = 2 ^ s * c := by
  refine ⟨10 ^ (-k).toNat * 2 ^ (-s).toNat, by positivity, ?_, ?_⟩
  · rw [ratio]
    push_cast
    rw [pow_toNat (by norm_num) k]
    ring
  · rw [ratio]
    push_cast
    rw [pow_toNat (by norm_num) s]
    ring

/-- The least exponent of a power of ten that is not clearly below `2^e`. -/
def leastExponent (e : ℤ) : ℤ := (e * 30103 + 99999) / 100000

/-- How large the denominator of a fraction near `x` can be if its numerator is that of a midpoint
at single precision. -/
def largestDenominator (x : Fraction) : ℕ := (2 ^ 25 + 3) * x.den / x.num

/-- The midpoint `22841339 · 2^(-108)` and the decimal `7038531 · 10^(-32)` differ by less than the
error of the arithmetic. There is no other such pair, unless midpoint and decimal are equal. -/
def closest : Fraction := ⟨22841339, 7038531⟩

theorem terms_closest {n d : ℕ} (hd : 0 < d) (hn : n ≤ 2 ^ 25 + 2)
    (h : n * closest.den = closest.num * d) : n = closest.num ∧ d = closest.den := by
  have hcoprime : closest.num.Coprime closest.den := by decide
  obtain ⟨t, rfl⟩ := hcoprime.dvd_of_dvd_mul_right (Dvd.intro d h.symm)
  have hd' : d = t * closest.den := by
    rw [mul_assoc] at h
    exact (Nat.eq_of_mul_eq_mul_left (by decide) h).symm
  have ht : t = 1 := by
    have hlt : closest.num * t < closest.num * 2 := lt_of_le_of_lt hn (by decide)
    have := Nat.lt_of_mul_lt_mul_left hlt
    have : t ≠ 0 := by
      rintro rfl
      omega
    omega
  rw [hd', ht, mul_one, one_mul]
  exact ⟨rfl, rfl⟩

/-- A list of neighbours around `10^k / 2^(e-1)` for the least `k` shows that decimals near a
midpoint are equal to it, or are the closest one. -/
def isSeparated (e : ℤ) : Bool :=
  let x := ratio (e - 1) (leastExponent e)
  let limit := largestDenominator x
  let around := x.walk limit 60 ⟨x.num / x.den, 1⟩ ⟨x.num / x.den + 1, 1⟩
  let low := around.1
  let high := around.2
  let inner := (if x.isBelow low then [] else [low]) ++ if x.isAbove high then [] else [high]
  let first := if x.isBelow low then low else low.opposite high limit
  let last := if x.isAbove high then high else high.opposite low limit
  x.isBelow first && x.isAbove last && Fraction.tight limit (first :: (inner ++ [last])) &&
    inner.all fun f =>
      decide (0 < f.den) && f.num * x.den == f.den * x.num && decide (e.natAbs ≤ 40) ||
        f == closest && e == -107

/-- Exponents of single precision can be gone through. -/
theorem of_exponents {p : ℤ → Bool} (h : ∀ i : Fin 254, p (i.val - 149) = true) {e : ℤ}
    (he : -149 ≤ e) (he' : e ≤ 104) : p e = true := by
  have hi := h ⟨(e + 149).toNat, by omega⟩
  rwa [(by omega : ((e + 149).toNat : ℤ) - 149 = e)] at hi

theorem isSeparated_single {e : ℤ} (he : -149 ≤ e) (he' : e ≤ 104) : isSeparated e = true :=
  of_exponents (by decide +kernel) he he'

theorem leastExponent_single {e : ℤ} (he : -149 ≤ e) (he' : e ≤ 104) :
    2 ^ 26 * (ratio e (leastExponent e - 1)).num <
      (2 ^ 26 - 1) * (ratio e (leastExponent e - 1)).den := by
  have h := of_exponents (p := fun e => 2 ^ 26 * (ratio e (leastExponent e - 1)).num <
    (2 ^ 26 - 1) * (ratio e (leastExponent e - 1)).den) (by decide +kernel) he he'
  exact of_decide_eq_true h

/-- The checks on a list of neighbours, for terms `n` and `d` that nearly give `10^k / 2^(e-1)`. -/
theorem eq_of_isSeparated {e : ℤ} {n d : ℕ} (h : isSeparated e = true) (hd : 0 < d)
    (hn : n ≤ 2 ^ 25 + 2)
    (hlow : d * (ratio (e - 1) (leastExponent e)).num * (2 ^ 54 - 5) ≤
      n * (ratio (e - 1) (leastExponent e)).den * 2 ^ 54)
    (hhigh : n * (ratio (e - 1) (leastExponent e)).den * 2 ^ 54 ≤
      d * (ratio (e - 1) (leastExponent e)).num * (2 ^ 54 + 5)) :
    (d * (ratio (e - 1) (leastExponent e)).num = n * (ratio (e - 1) (leastExponent e)).den ∧
      e.natAbs ≤ 40) ∨ (n = closest.num ∧ d = closest.den ∧ e = -107) := by
  have hnum : 0 < (ratio (e - 1) (leastExponent e)).num := by rw [ratio]; positivity
  have hden : 0 < (ratio (e - 1) (leastExponent e)).den := by rw [ratio]; positivity
  simp only [isSeparated, Bool.and_eq_true, List.all_eq_true] at h
  obtain ⟨⟨⟨hfirst, hlast⟩, htight⟩, hinner⟩ := h
  have hlimit : d ≤ largestDenominator (ratio (e - 1) (leastExponent e)) := by
    rw [largestDenominator, Nat.le_div_iff_mul_le hnum]
    have := Nat.mul_le_mul_right (ratio (e - 1) (leastExponent e)).den hn
    omega
  obtain ⟨f, hf, hnf⟩ := Fraction.mem_of_tight hlimit (Fraction.lt_of_isAbove hd hlast hhigh) _ _
    htight (Fraction.lt_of_isBelow hd hfirst hlow)
  have := hinner f hf
  simp only [Bool.or_eq_true, Bool.and_eq_true, decide_eq_true_eq, beq_iff_eq] at this
  generalize ratio (e - 1) (leastExponent e) = x at *
  rcases this with ⟨⟨hpos, heq⟩, he⟩ | ⟨rfl, he⟩
  · refine .inl ⟨Nat.eq_of_mul_eq_mul_left hpos ?_, he⟩
    calc f.den * (d * x.num) = d * (f.den * x.num) := by ring
      _ = f.num * d * x.den := by rw [← heq]; ring
      _ = f.den * (n * x.den) := by rw [← hnf]; ring
  · exact .inr ⟨(terms_closest hd hn hnf).1, (terms_closest hd hn hnf).2, he⟩

theorem leastExponent_le {e k : ℤ} (he : -149 ≤ e) (he' : e ≤ 104)
    (hk : (1 - 1 / 2 ^ 26) * 2 ^ e ≤ (10 : ℚ) ^ k) : leastExponent e ≤ k := by
  have hleast := leastExponent_single he he'
  obtain ⟨c, hc, hnum, hden⟩ := ratio_eq e (leastExponent e - 1)
  have hlt : (2 ^ 26 * (ratio e (leastExponent e - 1)).num : ℚ) <
      (2 ^ 26 - 1) * (ratio e (leastExponent e - 1)).den := by
    have : ((2 ^ 26 - 1 : ℕ) : ℚ) = 2 ^ 26 - 1 := by norm_num
    rw [← this]
    exact_mod_cast hleast
  rw [hnum, hden] at hlt
  by_contra hlt'
  have hpow : (10 : ℚ) ^ k ≤ 10 ^ (leastExponent e - 1) :=
    zpow_le_zpow_right₀ (by norm_num) (by omega)
  have : (1 - 1 / 2 ^ 26) * 2 ^ e * c ≤ 10 ^ (leastExponent e - 1) * c :=
    mul_le_mul_of_nonneg_right (hk.trans hpow) hc.le
  linarith

/-- A decimal on a grid not much finer than `2^e` keeps its distance from the multiples of
`2^(e-1)`. -/
theorem midpoint_separated {e k : ℤ} {d n : ℕ} (he : -149 ≤ e) (he' : e ≤ 104) (hd : 0 < d)
    (hn : n ≤ 2 ^ 25 + 2) (hk : (1 - 1 / 2 ^ 26) * 2 ^ e ≤ (10 : ℚ) ^ k)
    (hnear : |(d : ℚ) * 10 ^ k - n * 2 ^ (e - 1)| ≤ d * 10 ^ k * 5 / 2 ^ 54) :
    ((d : ℚ) * 10 ^ k = n * 2 ^ (e - 1) ∧ e.natAbs ≤ 40) ∨
      (n = closest.num ∧ d = closest.den ∧ e = -107 ∧ k = -32) := by
  have hle := leastExponent_le he he' hk
  obtain ⟨c, hc, hnum, hden⟩ := ratio_eq (e - 1) (leastExponent e)
  -- On the coarsest grid that is allowed the decimal has more digits.
  obtain ⟨j, hj⟩ := Int.eq_ofNat_of_zero_le (sub_nonneg.mpr hle)
  have hpow : (10 : ℚ) ^ k = 10 ^ j * 10 ^ leastExponent e := by
    rw [← zpow_natCast, ← zpow_add₀ (by norm_num)]
    congr 1
    omega
  have hdec : (d * 10 ^ j : ℕ) * (ratio (e - 1) (leastExponent e)).num = (d : ℚ) * 10 ^ k * c := by
    rw [hnum, hpow]
    push_cast
    ring
  have hbin : (n : ℚ) * (ratio (e - 1) (leastExponent e)).den = n * 2 ^ (e - 1) * c := by
    rw [hden]
    ring
  obtain ⟨hlow, hhigh⟩ := abs_le.mp hnear
  have h5 : ((2 ^ 54 - 5 : ℕ) : ℚ) = 2 ^ 54 - 5 := by norm_num
  have hlow' : ((d * 10 ^ j : ℕ) * (ratio (e - 1) (leastExponent e)).num * (2 ^ 54 - 5 : ℕ) : ℚ) ≤
      n * (ratio (e - 1) (leastExponent e)).den * 2 ^ 54 := by
    rw [hdec, hbin, h5]
    have := mul_le_mul_of_nonneg_right hhigh hc.le
    linarith
  have hhigh' : (n * (ratio (e - 1) (leastExponent e)).den * 2 ^ 54 : ℚ) ≤
      (d * 10 ^ j : ℕ) * (ratio (e - 1) (leastExponent e)).num * (2 ^ 54 + 5) := by
    rw [hdec, hbin]
    have := mul_le_mul_of_nonneg_right hlow hc.le
    linarith
  rcases eq_of_isSeparated (isSeparated_single he he') (by positivity : 0 < d * 10 ^ j) hn
    (by exact_mod_cast hlow') (by exact_mod_cast hhigh') with ⟨heq, hsmall⟩ | ⟨hnum, hden, hexp⟩
  · refine .inl ⟨mul_right_cancel₀ hc.ne' ?_, hsmall⟩
    rw [← hdec, ← hbin]
    exact_mod_cast heq
  · have hj0 : j = 0 := by
      cases j with
      | zero => rfl
      | succ j =>
        have hten : 10 ∣ closest.den := hden ▸ Dvd.dvd.mul_left (dvd_pow_self 10 j.succ_ne_zero) d
        exact absurd hten (by decide)
    have hk32 : leastExponent (-107) = -32 := by decide
    rw [hj0, pow_zero, mul_one] at hden
    rw [hj0, hexp, hk32] at hj
    exact .inr ⟨hnum, hden, hexp, by push_cast at hj; omega⟩

end Widgetry.Number
