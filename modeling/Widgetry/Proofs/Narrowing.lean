import Widgetry.Number.Shortest
import Widgetry.Proofs.Rounding

/-!
# Rounding to a narrower format

`Format.magnitude` gives the pattern of the value nearest to an exact one. A value that lies in
the interval of `m · 2^e` is rounded to the pattern of `m · 2^e`.
-/

namespace Widgetry.Number

namespace Interval

def value (i : Interval) : ℚ := i.centre * 2 ^ i.scale

def low (i : Interval) : ℚ := (i.centre - i.below) * 2 ^ i.scale

def high (i : Interval) : ℚ := (i.centre + i.above) * 2 ^ i.scale

/-- Whether a real value lies in an interval. -/
def Contains (i : Interval) (v : ℚ) : Prop :=
  if i.closed then i.low ≤ v ∧ v ≤ i.high else i.low < v ∧ v < i.high

theorem contains_bounds {i : Interval} {v : ℚ} (h : i.Contains v) : i.low ≤ v ∧ v ≤ i.high := by
  rw [Contains] at h
  split at h
  · exact h
  · exact ⟨h.1.le, h.2.le⟩

theorem contains_of_between {i : Interval} {v : ℚ} (hlow : i.low < v) (hhigh : v < i.high) :
    i.Contains v := by
  rw [Contains]
  split
  · exact ⟨hlow.le, hhigh.le⟩
  · exact ⟨hlow, hhigh⟩

end Interval

/-- The number of which a quotient is at most a half away, and only if it is even exactly so. -/
theorem shiftRightEven_eq {n k r : ℕ} (hlow : 2 * (r * 2 ^ k) ≤ 2 * n + 2 ^ k)
    (hhigh : 2 * n ≤ 2 * (r * 2 ^ k) + 2 ^ k)
    (htie : 2 * (r * 2 ^ k) = 2 * n + 2 ^ k ∨ 2 * n = 2 * (r * 2 ^ k) + 2 ^ k → r % 2 = 0) :
    shiftRightEven n k = r := by
  have hpos : 0 < 2 ^ k := by positivity
  have hdiv := Nat.div_add_mod n (2 ^ k)
  have hmod := Nat.mod_lt n hpos
  have hpow : Nat.pow 2 k = 2 ^ k := rfl
  rw [shiftRightEven, hpow]
  generalize n / 2 ^ k = q at *
  generalize n % 2 ^ k = t at *
  generalize 2 ^ k = w at *
  have hcases : r = q ∨ r = q + 1 := by
    have hle : r < q + 2 := by
      by_contra hge
      have : (q + 2) * w ≤ r * w := Nat.mul_le_mul_right w (by omega)
      nlinarith
    have hge : q ≤ r := by
      by_contra hlt
      have : (r + 1) * w ≤ q * w := Nat.mul_le_mul_right w (by omega)
      nlinarith
    omega
  rcases hcases with rfl | rfl
  · have hcomm : w * r = r * w := Nat.mul_comm w r
    have ht : ¬ (2 * t > w || (2 * t == w && r % 2 == 1)) = true := by
      simp only [Bool.or_eq_true, Bool.and_eq_true, decide_eq_true_eq, beq_iff_eq]
      omega
    simp only [ht, if_false, Bool.false_eq_true]
  · have hcomm : w * q = q * w := Nat.mul_comm w q
    have hsucc : (q + 1) * w = q * w + w := Nat.succ_mul q w
    have ht : (2 * t > w || (2 * t == w && q % 2 == 1)) = true := by
      simp only [Bool.or_eq_true, Bool.and_eq_true, decide_eq_true_eq, beq_iff_eq]
      omega
    simp only [ht, if_true]

/-- The digits of a value at a last digit above its own are those of the nearest multiple. -/
theorem shiftRightEven_digits {m r k : ℕ} {e last : ℤ} (hk : last - e = k)
    (hlow : (r - 1 / 2) * 2 ^ last ≤ scaled m e) (hhigh : scaled m e ≤ (r + 1 / 2) * 2 ^ last)
    (htie : scaled m e = (r - 1 / 2) * 2 ^ last ∨ scaled m e = (r + 1 / 2) * 2 ^ last → r % 2 = 0) :
    shiftRightEven m k = r := by
  have hlast : (0 : ℚ) < 2 ^ last := by positivity
  have hscale : scaled m e = m / 2 ^ k * 2 ^ last := by
    rw [scaled, (by omega : last = e + k), zpow_add₀ (by norm_num), zpow_natCast]
    field_simp
  have hpow : (0 : ℚ) < 2 ^ k := by positivity
  rw [hscale] at hlow hhigh htie
  rw [mul_le_mul_iff_left₀ hlast, le_div_iff₀ hpow] at hlow
  rw [mul_le_mul_iff_left₀ hlast, div_le_iff₀ hpow] at hhigh
  refine shiftRightEven_eq ?_ ?_ fun h => htie ?_
  · have : (2 * (r * 2 ^ k) : ℚ) ≤ 2 * m + 2 ^ k := by linarith
    exact_mod_cast this
  · have : (2 * m : ℚ) ≤ 2 * (r * 2 ^ k) + 2 ^ k := by linarith
    exact_mod_cast this
  · refine h.imp (fun h => ?_) (fun h => ?_)
    · have : (2 * (r * 2 ^ k) : ℚ) = 2 * m + 2 ^ k := by exact_mod_cast h
      rw [mul_left_inj' hlast.ne', div_eq_iff hpow.ne']
      linarith
    · have : (2 * m : ℚ) = 2 * (r * 2 ^ k) + 2 ^ k := by exact_mod_cast h
      rw [mul_left_inj' hlast.ne', div_eq_iff hpow.ne']
      linarith

/-- At a last digit below its own a value is a multiple itself. -/
theorem mul_pow_digits {m r k : ℕ} {e last : ℤ} (hk : e = last + (k + 1 : ℕ))
    (hlow : (r - 1 / 2) * 2 ^ last ≤ scaled m e) (hhigh : scaled m e ≤ (r + 1 / 2) * 2 ^ last) :
    m * 2 ^ (k + 1) = r := by
  have hlast : (0 : ℚ) < 2 ^ last := by positivity
  have hscale : scaled m e = (m * 2 ^ (k + 1) : ℕ) * 2 ^ last := by
    rw [scaled, hk, zpow_add₀ (by norm_num), zpow_natCast]
    push_cast
    ring
  rw [hscale, mul_le_mul_iff_left₀ hlast] at hlow hhigh
  generalize m * 2 ^ (k + 1) = n at hlow hhigh
  have h1 : (r : ℚ) < n + 1 := by linarith
  have h2 : (n : ℚ) < r + 1 := by linarith
  have h1 : r < n + 1 := by exact_mod_cast h1
  have h2 : n < r + 1 := by exact_mod_cast h2
  omega

theorem scaled_bounds {n : ℕ} (hn : n ≠ 0) (i : ℤ) :
    (2 : ℚ) ^ (i + n.log2) ≤ scaled n i ∧ scaled n i < 2 ^ (i + n.log2 + 1) := by
  obtain ⟨hlow, hhigh⟩ := (Nat.log2_eq_iff hn).mp (rfl : n.log2 = n.log2)
  have hexp : (0 : ℚ) < 2 ^ i := by positivity
  rw [add_assoc, zpow_add₀ (by norm_num), zpow_add₀ (by norm_num), zpow_natCast,
    (by push_cast; rfl : (n.log2 + 1 : ℤ) = (n.log2 + 1 : ℕ)), zpow_natCast, scaled,
    mul_comm (n : ℚ)]
  constructor
  · exact mul_le_mul_of_nonneg_left (by exact_mod_cast hlow) hexp.le
  · exact mul_lt_mul_of_pos_left (by exact_mod_cast hhigh) hexp

/-! ## Single precision -/

/-- The significands and exponents of positive single precision numbers. -/
structure Canonical (m : ℕ) (e : ℤ) : Prop where
  pos : 0 < m
  lt : m < 2 ^ 24
  low : -149 ≤ e
  high : e ≤ 104
  full : e = -149 ∨ 2 ^ 23 ≤ m

theorem interval_below (m : ℕ) (e : ℤ) : (binary32.interval m e).below = 2 ∨
    ((binary32.interval m e).below = 1 ∧ m = 2 ^ 23 ∧ -149 < e) := by
  have hmin : binary32.minExponent = -149 := by decide
  have hpow : Nat.pow 2 binary32.fractionBits = 2 ^ 23 := by decide
  simp only [Format.interval, hmin, hpow, Bool.and_eq_true, decide_eq_true_eq]
  split
  case isTrue h => exact .inr ⟨rfl, h⟩
  case isFalse => exact .inl rfl

theorem interval_below_carry {m : ℕ} {e : ℤ} (hm : m = 2 ^ 23) (he : -149 < e) :
    (binary32.interval m e).below = 1 := by
  have hmin : binary32.minExponent = -149 := by decide
  have hpow : Nat.pow 2 binary32.fractionBits = 2 ^ 23 := by decide
  simp only [Format.interval, hmin, hpow, Bool.and_eq_true, decide_eq_true_eq, hm, he, and_self,
    if_true]

theorem quarter (e : ℤ) : (2 : ℚ) ^ (e - 2) = 2 ^ e / 4 := by
  rw [zpow_sub₀ (by norm_num)]
  norm_num

theorem interval_value (m : ℕ) (e : ℤ) : (binary32.interval m e).value = scaled m e := by
  show ((4 * m : ℕ) : ℚ) * 2 ^ (e - 2) = _
  rw [quarter, scaled]
  push_cast
  ring

/-- The interval of a number reaches half a digit up. -/
theorem interval_high (m : ℕ) (e : ℤ) :
    (binary32.interval m e).high = (m + 1 / 2) * 2 ^ e := by
  show ((4 * m : ℕ) + (2 : ℕ) : ℚ) * 2 ^ (e - 2) = _
  rw [quarter]
  push_cast
  ring

/-- It reaches half a digit down as well, or a quarter from a power of two. -/
theorem interval_low (m : ℕ) (e : ℤ) : (binary32.interval m e).low =
    (m - (binary32.interval m e).below / 4) * 2 ^ e := by
  show ((4 * m : ℕ) - (binary32.interval m e).below : ℚ) * 2 ^ (e - 2) = _
  rw [quarter]
  push_cast
  ring

theorem le_interval_low (m : ℕ) (e : ℤ) : (m - 1 / 2) * 2 ^ e ≤ (binary32.interval m e).low := by
  rw [interval_low]
  refine mul_le_mul_of_nonneg_right ?_ (by positivity)
  rcases interval_below m e with hb | ⟨hb, _⟩ <;> rw [hb] <;> push_cast <;> linarith

/-- The ends of an interval belong to an even significand. -/
theorem even_of_contains {m : ℕ} {e : ℤ} {v : ℚ} (h : (binary32.interval m e).Contains v)
    (hv : v = (m - 1 / 2) * 2 ^ e ∨ v = (m + 1 / 2) * 2 ^ e) : m % 2 = 0 := by
  have hlow := le_interval_low m e
  have hhigh := interval_high m e
  rw [Interval.Contains] at h
  split at h
  case isTrue heven => exact beq_iff_eq.mp heven
  case isFalse =>
    rcases hv with hv | hv <;> linarith

theorem magnitude_of_digits {n r : ℕ} {i last : ℤ} (hn : n ≠ 0)
    (hlast : max (i + n.log2 - 23) (-149) = last)
    (hlow : (r - 1 / 2) * 2 ^ last ≤ scaled n i) (hhigh : scaled n i ≤ (r + 1 / 2) * 2 ^ last)
    (htie : scaled n i = (r - 1 / 2) * 2 ^ last ∨ scaled n i = (r + 1 / 2) * 2 ^ last → r % 2 = 0) :
    binary32.magnitude n i = min ((last + 149).toNat * 2 ^ 23 + r) (255 * 2 ^ 23) := by
  have hmin : binary32.minExponent = -149 := by decide
  have htop : binary32.topField = 255 := by decide
  have hlast' : max (i + (n.log2 + 1 : ℕ) - (binary32.precision : ℕ)) (-149) = last := by
    have hprecision : i + (n.log2 + 1 : ℕ) - (binary32.precision : ℕ) = i + n.log2 - 23 := by
      have : binary32.precision = 24 := rfl
      omega
    rw [hprecision, hlast]
  have hpow : Nat.pow 2 binary32.fractionBits = 2 ^ 23 := by decide
  simp only [Format.magnitude, hn, if_false, hmin, htop, hlast', hpow, sub_neg_eq_add]
  congr 2
  rcases hk : last - i with k | k
  · exact shiftRightEven_digits hk hlow hhigh htie
  · exact mul_pow_digits (by rw [Int.negSucc_eq] at hk; push_cast; omega) hlow hhigh

/-- A value that rounds up to a power of two takes the carry into the exponent field. -/
theorem magnitude_below_power {m n : ℕ} {e i : ℤ} (hm : m = 2 ^ 23) (he : -149 < e) (he' : e ≤ 104)
    (hn : n ≠ 0) (hlast : i + n.log2 - 23 < e)
    (h : (binary32.interval m e).Contains (scaled n i)) :
    binary32.magnitude n i = (e + 149).toNat * 2 ^ 23 + m := by
  have hexp : (0 : ℚ) < 2 ^ (e - 1) := by positivity
  have htwice : (2 : ℚ) ^ e = 2 * 2 ^ (e - 1) := by
    rw [← zpow_one_add₀ (by norm_num)]
    congr 1
    ring
  have hlow : ((2 ^ 24 : ℕ) - 1 / 2) * 2 ^ (e - 1) ≤ scaled n i := by
    have hle := (Interval.contains_bounds h).1
    rw [interval_low, interval_below_carry hm he, hm, htwice] at hle
    push_cast at hle ⊢
    linarith
  obtain ⟨-, hwidth⟩ := scaled_bounds hn i
  have hlast : i + n.log2 - 23 = e - 1 := by
    have hlt : (2 : ℚ) ^ (e - 1 + 23) < 2 ^ (i + n.log2 + 1) := by
      refine lt_of_le_of_lt ?_ (hlow.trans_lt hwidth)
      rw [zpow_add₀ (by norm_num), mul_comm ((2 : ℚ) ^ (e - 1))]
      exact mul_le_mul_of_nonneg_right (by norm_num) hexp.le
    have := (zpow_lt_zpow_iff_right₀ (by norm_num)).mp hlt
    omega
  have hhigh : scaled n i ≤ ((2 ^ 24 : ℕ) + 1 / 2) * 2 ^ (e - 1) := by
    refine hwidth.le.trans ?_
    rw [(by omega : i + n.log2 + 1 = e - 1 + 24), zpow_add₀ (by norm_num),
      mul_comm ((2 : ℚ) ^ (e - 1))]
    exact mul_le_mul_of_nonneg_right (by norm_num) hexp.le
  rw [magnitude_of_digits hn (by omega : max (i + n.log2 - 23) (-149) = e - 1) hlow hhigh
    (fun _ => by decide)]
  omega

/-- The pattern of a value in the interval of a number is that of the number. -/
theorem magnitude_eq {m n : ℕ} {e i : ℤ} (hc : Canonical m e)
    (h : (binary32.interval m e).Contains (scaled n i)) :
    binary32.magnitude n i = (e + 149).toNat * 2 ^ 23 + m := by
  obtain ⟨hlow, hhigh⟩ := Interval.contains_bounds h
  replace hlow := (le_interval_low m e).trans hlow
  rw [interval_high] at hhigh
  have htie := even_of_contains h
  obtain ⟨hpos, hlt, helow, hehigh, hfull⟩ := hc
  have hexp : (0 : ℚ) < 2 ^ e := by positivity
  have hmq : (1 : ℚ) ≤ m := by exact_mod_cast hpos
  have hmlt : (m + 1 : ℚ) ≤ 2 ^ 24 := by exact_mod_cast hlt
  have hn : n ≠ 0 := by
    rintro rfl
    have : (0 : ℚ) < (m - 1 / 2) * 2 ^ e := mul_pos (by linarith) hexp
    rw [scaled, Nat.cast_zero, zero_mul] at hlow
    linarith
  obtain ⟨hleading, hwidth⟩ := scaled_bounds hn i
  have hbits : (e + 149).toNat * 2 ^ 23 + m ≤ 255 * 2 ^ 23 := by
    have : (e + 149).toNat ≤ 253 := by omega
    omega
  -- The last digit of the rounded value is at `e`, unless the value is below a power of two.
  have hup : i + n.log2 - 23 ≤ e := by
    have hlt : (2 : ℚ) ^ (i + n.log2) < 2 ^ (e + 24) := by
      refine lt_of_le_of_lt (hleading.trans hhigh) ?_
      rw [zpow_add₀ (by norm_num), mul_comm ((2 : ℚ) ^ e)]
      refine mul_lt_mul_of_pos_right ?_ hexp
      norm_num at hmlt ⊢
      linarith
    have := (zpow_lt_zpow_iff_right₀ (by norm_num)).mp hlt
    omega
  by_cases hlast : max (i + n.log2 - 23) (-149) = e
  · rw [magnitude_of_digits hn hlast hlow hhigh htie, min_eq_left hbits]
  · have hm : 2 ^ 23 ≤ m := by omega
    have hcarry : m = 2 ^ 23 := by
      by_contra hne
      have hm : (2 ^ 23 + 1 : ℚ) ≤ m := by exact_mod_cast (by omega : 2 ^ 23 + 1 ≤ m)
      have hlt : (2 : ℚ) ^ (e + 23) < 2 ^ (i + n.log2 + 1) := by
        refine lt_of_le_of_lt ?_ (hlow.trans_lt hwidth)
        rw [zpow_add₀ (by norm_num), mul_comm ((2 : ℚ) ^ e)]
        refine mul_le_mul_of_nonneg_right ?_ hexp.le
        rw [(by norm_num : (2 : ℚ) ^ (23 : ℤ) = 2 ^ 23)]
        linarith
      have := (zpow_lt_zpow_iff_right₀ (by norm_num)).mp hlt
      omega
    exact magnitude_below_power hcarry (by omega) hehigh hn (by omega) h

end Widgetry.Number
