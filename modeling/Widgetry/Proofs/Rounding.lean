import Widgetry.Proofs.Bits

/-!
# Rounding at double precision

The operations on numbers compute a few bits more than fit, with a note of how the exact result
lies relative to them, and round to the nearest number. `Describes` gives the note its meaning;
shifting bits out keeps it, so that a rounded result is at most half a unit off and exact if it
can be.
-/

namespace Widgetry.Number

open Float.Model Float.Model.UnpackedFloat

/-- Where an exact value lies from a significand on, as its two further bits say. -/
def Describes (em : ExtendedMantissa) (w : ℚ) : Prop :=
  match em.roundBit, em.stickyBit with
  | false, false => w = em.mantissa
  | false, true => (em.mantissa : ℚ) < w ∧ w < em.mantissa + 1 / 2
  | true, false => w = em.mantissa + 1 / 2
  | true, true => (em.mantissa : ℚ) + 1 / 2 < w ∧ w < em.mantissa + 1

theorem Describes.floor {em : ExtendedMantissa} {w : ℚ} (h : Describes em w) :
    (em.mantissa : ℚ) ≤ w ∧ w < em.mantissa + 1 := by
  obtain ⟨m, r, s⟩ := em
  cases r <;> cases s <;> simp only [Describes] at h <;> constructor <;> linarith

theorem Describes.shiftRightOne {em : ExtendedMantissa} {w : ℚ} (h : Describes em w) :
    Describes em.shiftRightOne (w / 2) := by
  obtain ⟨m, r, s⟩ := em
  have hdiv : (m : ℚ) = 2 * (m / 2 : ℕ) + (m % 2 : ℕ) := by
    exact_mod_cast (Nat.div_add_mod m 2).symm
  rcases Nat.mod_two_eq_zero_or_one m with hm | hm
  · rw [hm] at hdiv
    cases r <;> cases s <;> simp [Describes, ExtendedMantissa.shiftRightOne, hm] at h ⊢ <;>
      first | linarith | constructor <;> linarith
  · rw [hm] at hdiv
    cases r <;> cases s <;> simp [Describes, ExtendedMantissa.shiftRightOne, hm] at h ⊢ <;>
      first | linarith | constructor <;> linarith

theorem Describes.shiftRight {em : ExtendedMantissa} {w : ℚ} (h : Describes em w) (n : ℕ) :
    Describes (em >>> n) (w / 2 ^ n) := by
  show Describes (n.repeat ExtendedMantissa.shiftRightOne em) _
  induction n with
  | zero => simpa [Nat.repeat] using h
  | succ n ih =>
    rw [pow_succ, ← div_div]
    exact ih.shiftRightOne

/-- The nearest significand is at most a half off. -/
theorem Describes.rounded {em : ExtendedMantissa} {w : ℚ} (h : Describes em w) :
    |(em.roundedMantissa : ℚ) - w| ≤ 1 / 2 := by
  obtain ⟨m, r, s⟩ := em
  rw [abs_le]
  cases r <;> cases s <;>
    simp only [Describes, ExtendedMantissa.roundedMantissa, ExtendedMantissa.accuracy,
      Accuracy.roundToNearestEven] at h ⊢
  · constructor <;> linarith
  · constructor <;> linarith
  · rcases Nat.mod_two_eq_zero_or_one m with hm | hm <;> rw [hm] <;> push_cast <;>
      constructor <;> linarith
  · push_cast
    constructor <;> linarith

/-- A whole number is not rounded. -/
theorem Describes.rounded_of_whole {em : ExtendedMantissa} {w : ℚ} (h : Describes em w) {n : ℕ}
    (hn : w = n) : em.roundedMantissa = n := by
  have hr := h.rounded
  rw [hn, abs_le] at hr
  have hlow : (n : ℤ) - em.roundedMantissa < 1 := by
    have : ((n : ℤ) - em.roundedMantissa : ℚ) < 1 := by push_cast; linarith
    exact_mod_cast this
  have hhigh : (em.roundedMantissa : ℤ) - n < 1 := by
    have : ((em.roundedMantissa : ℤ) - n : ℚ) < 1 := by push_cast; linarith
    exact_mod_cast this
  omega

/-! ## Normal results -/

/-- The value `m · 2^e`. -/
def scaled (m : ℕ) (e : ℤ) : ℚ := m * 2 ^ e

theorem target_normal {m : ℕ} {e : ℤ} {j : ℕ} (hlog : m.log2 = 52 + j) (hlow : -1074 ≤ e + j) :
    Format.binary64.targetExponent (totalExponent m e) = e + j := by
  have hbits : (Format.binary64.mantissaBits : ℤ) = 53 := by decide
  have hmin : Format.binary64.minExponent = -1074 := by decide
  rw [Format.targetExponent, totalExponent, hlog, hbits, hmin]
  omega

theorem shift_normal {m : ℕ} {e : ℤ} {j : ℕ} (hlog : m.log2 = 52 + j) (hlow : -1074 ≤ e + j)
    (a : Accuracy) : shiftToTargetExponent .binary64 m e a =
      (ExtendedMantissa.ofMantissaAndAccuracy m a >>> j, e + j) := by
  have hshift : (e + (j : ℤ) - e).toNat = j := by omega
  simp only [shiftToTargetExponent, target_normal hlog hlow, shiftToExponent, hshift]

/-- What rounding does with the significand that the first shift leaves: it is kept, unless
rounding carried it over to the next power of two. -/
theorem roundWithAccuracy_eq {s : Sign} {m r : ℕ} {e : ℤ} {j : ℕ} (hlog : m.log2 = 52 + j)
    (hlow : -1074 ≤ e + j) {a : Accuracy}
    (hr : (ExtendedMantissa.ofMantissaAndAccuracy m a >>> j).roundedMantissa = r)
    (hrlog : r.log2 = 52 ∨ r = 2 ^ 53) :
    ∃ M E h, roundWithAccuracy .binary64 s m e a = .finite s M E h ∧ M.log2 = 52 ∧
      (E = e + j ∨ E = e + j + 1) ∧ scaled M E = scaled r (e + j) := by
  rcases hrlog with hkeep | hcarry
  · have hsecond := shift_normal (e := e + j) (j := 0) hkeep (by simpa using hlow) .exact
    have hne : r ≠ 0 := by
      rintro rfl
      cases hkeep
    rw [Nat.cast_zero, add_zero] at hsecond
    refine ⟨r, e + j, Nat.pos_of_ne_zero hne, ?_, hkeep, .inl rfl, rfl⟩
    simp only [roundWithAccuracy, shift_normal hlog hlow, hr, hsecond]
    exact dif_neg hne
  · have hcarrylog : Nat.log2 (2 ^ 53) = 52 + 1 := Nat.log2_two_pow
    have hsecond := shift_normal (e := e + j) (j := 1) hcarrylog (by push_cast; omega) .exact
    refine ⟨2 ^ 52, e + j + 1, by positivity, ?_, Nat.log2_two_pow, .inr rfl, ?_⟩
    · simp only [roundWithAccuracy, shift_normal hlog hlow, hr, hcarry, hsecond]
      rfl
    · rw [hcarry, scaled, scaled, zpow_add_one₀ (by norm_num)]
      push_cast
      ring

/-- A value with few digits has none below the last one of a large significand. -/
theorem whole_of_fits {w : ℚ} {e : ℤ} {j : ℕ} (hw : (2 : ℚ) ^ (52 + j) ≤ w) {n : ℕ} {k : ℤ}
    (hn : n < 2 ^ 53) (h : w * 2 ^ e = scaled n k) : ∃ n' : ℕ, w = n' * 2 ^ j := by
  have hweq : w = n * 2 ^ (k - e) := by
    rw [zpow_sub₀ (by norm_num), mul_div_assoc', ← scaled, ← h]
    field_simp
  have hle : (j : ℤ) ≤ k - e := by
    have hlt : (2 : ℚ) ^ ((52 + j : ℕ) : ℤ) < 2 ^ (53 + (k - e)) := by
      rw [zpow_natCast, zpow_add₀ (by norm_num)]
      refine lt_of_le_of_lt hw ?_
      rw [hweq]
      refine mul_lt_mul_of_pos_right ?_ (by positivity)
      exact_mod_cast hn
    have := (zpow_lt_zpow_iff_right₀ (by norm_num)).mp hlt
    push_cast at this
    omega
  refine ⟨n * 2 ^ (k - e - j).toNat, ?_⟩
  have hpow : (2 : ℚ) ^ (k - e) = 2 ^ (k - e - j).toNat * 2 ^ j := by
    rw [← zpow_natCast, ← zpow_natCast, ← zpow_add₀ (by norm_num)]
    congr 1
    omega
  rw [hweq, hpow]
  push_cast
  ring

/-- A result that is not subnormal is off by at most one part in `2^53`, and exact if its digits
fit. -/
theorem roundWithAccuracy_normal {s : Sign} {m : ℕ} {e : ℤ} {j : ℕ} (hlog : m.log2 = 52 + j)
    (hlow : -1074 ≤ e + j) {a : Accuracy} {w : ℚ}
    (hw : Describes (.ofMantissaAndAccuracy m a) w) :
    ∃ M E h, roundWithAccuracy .binary64 s m e a = .finite s M E h ∧ M.log2 = 52 ∧
      (E = e + j ∨ E = e + j + 1) ∧ |scaled M E - w * 2 ^ e| ≤ w * 2 ^ e / 2 ^ 53 ∧
      ∀ (n : ℕ) (k : ℤ), n < 2 ^ 53 → w * 2 ^ e = scaled n k → scaled M E = w * 2 ^ e := by
  have hmantissa : (ExtendedMantissa.ofMantissaAndAccuracy m a).mantissa = m := by
    rcases a with _ | o
    · rfl
    · cases o <;> rfl
  have hm0 : m ≠ 0 := by
    rintro rfl
    rw [Nat.log2_zero] at hlog
    omega
  obtain ⟨hmlow, hmhigh⟩ := (Nat.log2_eq_iff hm0).mp hlog
  obtain ⟨hwlow, hwhigh⟩ := hw.floor
  rw [hmantissa] at hwlow hwhigh
  -- The significand after the shift, before it is rounded.
  have hshift := hw.shiftRight j
  have hpow : (0 : ℚ) < 2 ^ j := by positivity
  have hxlow : (2 : ℚ) ^ 52 ≤ w / 2 ^ j := by
    rw [le_div_iff₀ hpow, ← pow_add]
    exact le_trans (by exact_mod_cast hmlow) hwlow
  have hxhigh : w / 2 ^ j < 2 ^ 53 := by
    rw [div_lt_iff₀ hpow, ← pow_add]
    have hm : ((m + 1 : ℕ) : ℚ) ≤ 2 ^ (53 + j) := by
      have : 53 + j = 52 + j + 1 := by omega
      rw [this]
      exact_mod_cast hmhigh
    push_cast at hm
    linarith
  obtain ⟨hrlow, hrhigh⟩ := abs_le.mp hshift.rounded
  generalize hr : (ExtendedMantissa.ofMantissaAndAccuracy m a >>> j).roundedMantissa = r
    at hrlow hrhigh
  have hr52 : 2 ^ 52 ≤ r := by
    have : (2 ^ 52 : ℚ) < r + 1 := by linarith
    have : 2 ^ 52 < r + 1 := by exact_mod_cast this
    omega
  have hr53 : r ≤ 2 ^ 53 := by
    have : (r : ℚ) < 2 ^ 53 + 1 := by linarith
    have : r < 2 ^ 53 + 1 := by exact_mod_cast this
    omega
  have hrlog : r.log2 = 52 ∨ r = 2 ^ 53 := by
    rcases Nat.lt_or_eq_of_le hr53 with hlt | heq
    · exact .inl ((Nat.log2_eq_iff (by omega)).mpr ⟨hr52, hlt⟩)
    · exact .inr heq
  obtain ⟨M, E, h, hround, hM, hE, hval⟩ := roundWithAccuracy_eq (s := s) hlog hlow hr hrlog
  have hscale : scaled r (e + j) = r * 2 ^ j * 2 ^ e := by
    rw [scaled, zpow_add₀ (by norm_num), zpow_natCast]
    ring
  have hexp : (0 : ℚ) < 2 ^ e := by positivity
  refine ⟨M, E, h, hround, hM, hE, ?_, ?_⟩
  · have hdiff : scaled M E - w * 2 ^ e = (r - w / 2 ^ j) * (2 ^ j * 2 ^ e) := by
      rw [hval, hscale]
      field_simp
    have hw53 : w * 2 ^ e / 2 ^ 53 = (w / 2 ^ j) / 2 ^ 53 * (2 ^ j * 2 ^ e) := by
      field_simp
    rw [hdiff, abs_mul, abs_of_pos (by positivity : (0 : ℚ) < 2 ^ j * 2 ^ e), hw53]
    refine mul_le_mul_of_nonneg_right ?_ (by positivity)
    rw [abs_le]
    constructor <;> linarith
  · intro n k hlt hfits
    have hwm : (2 : ℚ) ^ (52 + j) ≤ w := le_trans (by exact_mod_cast hmlow) hwlow
    obtain ⟨n, hn⟩ := whole_of_fits hwm hlt hfits
    have hwhole : w / 2 ^ j = n := by
      rw [hn]
      field_simp
    rw [hval, hscale, ← hr, hshift.rounded_of_whole hwhole, hn]

end Widgetry.Number
