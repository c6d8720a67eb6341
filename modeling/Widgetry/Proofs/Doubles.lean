import Widgetry.Json.Numeral
import Widgetry.Proofs.Rounding

/-!
# Arithmetic at double precision

A positive number with a full significand is `Normal`. Products and quotients of normal numbers
that stay in range are normal again, off by at most one part in `2^53`, and exact if they can be.
-/

namespace Widgetry.Number

open Float.Model Float.Model.UnpackedFloat

/-- The positive number `m · 2^e` with a full significand. -/
structure Normal (x : Float) (m : ℕ) (e : ℤ) : Prop where
  unpacked : ∃ h, x.toModel.unpack = .finite .positive m e h
  digits : m.log2 = 52
  low : -1074 ≤ e
  high : e ≤ 971

theorem Normal.bounds {x : Float} {m : ℕ} {e : ℤ} (h : Normal x m e) : 2 ^ 52 ≤ m ∧ m < 2 ^ 53 := by
  obtain ⟨hpos, _⟩ := h.unpacked
  exact (Nat.log2_eq_iff (by omega)).mp h.digits

theorem Normal.unpack64 {x : Float} {m : ℕ} {e : ℤ} (h : Normal x m e) :
    unpack64 x = .finite false m e := by
  obtain ⟨hpos, hx⟩ := h.unpacked
  have hdecode := decode_unpack binary64_matches x.toModel.toBits.toBitVec
  rw [show UnpackedFloat.unpack .binary64 x.toModel.toBits.toBitVec = _ from hx] at hdecode
  exact hdecode

theorem unpack_pack_normal {s : Sign} {m : ℕ} {e : ℤ} (hpos : 0 < m) (hm : m.log2 = 52)
    (hlow : -1074 ≤ e) (hhigh : e ≤ 971) :
    (Float.Model.pack (.finite s m e hpos)).unpack = .finite s m e hpos := by
  have hbias : (Format.binary64.exponentBias : ℤ) = 1023 := by decide
  refine unpack_pack hpos hm ?_ ?_
  · rw [hbias]
    show (1 : ℤ) ≤ e + 1023 + (52 : ℕ)
    omega
  · rw [hbias]
    show e + 1023 + (52 : ℕ) + 1 < ((2 ^ 11 : ℕ) : ℤ)
    omega

/-- What an operation packs is normal. -/
theorem normal_of_pack {x : Float} {m : ℕ} {e : ℤ} {hpos : 0 < m}
    (hx : x.toModel = Float.Model.pack (.finite .positive m e hpos)) (hm : m.log2 = 52)
    (hlow : -1074 ≤ e) (hhigh : e ≤ 971) : Normal x m e :=
  ⟨⟨hpos, by rw [hx]; exact unpack_pack_normal hpos hm hlow hhigh⟩, hm, hlow, hhigh⟩

theorem log2_mul {m n : ℕ} (hm : 2 ^ 52 ≤ m ∧ m < 2 ^ 53) (hn : 2 ^ 52 ≤ n ∧ n < 2 ^ 53) :
    ∃ j, (m * n).log2 = 52 + j ∧ 52 ≤ j ∧ j ≤ 53 := by
  have hlow : 2 ^ 104 ≤ m * n := by
    calc 2 ^ 104 = 2 ^ 52 * 2 ^ 52 := by norm_num
      _ ≤ m * n := Nat.mul_le_mul hm.1 hn.1
  have hhigh : m * n < 2 ^ 106 := by
    calc m * n < 2 ^ 53 * 2 ^ 53 := Nat.mul_lt_mul'' hm.2 hn.2
      _ = 2 ^ 106 := by norm_num
  have hne : m * n ≠ 0 := by omega
  have h104 := (Nat.le_log2 hne).mpr hlow
  have h106 := (Nat.log2_lt hne).mpr hhigh
  exact ⟨(m * n).log2 - 52, by omega, by omega, by omega⟩

theorem Normal.mul {a b : Float} {m₁ m₂ : ℕ} {e₁ e₂ : ℤ} (ha : Normal a m₁ e₁)
    (hb : Normal b m₂ e₂) (hlow : -1000 ≤ e₁ + e₂) (hhigh : e₁ + e₂ ≤ 900) :
    ∃ m e, Normal (a * b) m e ∧
      |scaled m e - scaled m₁ e₁ * scaled m₂ e₂| ≤ scaled m₁ e₁ * scaled m₂ e₂ / 2 ^ 53 ∧
      ∀ (n : ℕ) (k : ℤ), n < 2 ^ 53 → scaled m₁ e₁ * scaled m₂ e₂ = scaled n k →
        scaled m e = scaled n k := by
  obtain ⟨j, hlog, hj52, hj53⟩ := log2_mul ha.bounds hb.bounds
  obtain ⟨hpa, hua⟩ := ha.unpacked
  obtain ⟨hpb, hub⟩ := hb.unpacked
  have hdescribes : Describes (.ofMantissaAndAccuracy (m₁ * m₂) .exact) ((m₁ * m₂ : ℕ) : ℚ) := rfl
  obtain ⟨m, e, hpos, hround, hm, he, herror, hexact⟩ :=
    roundWithAccuracy_normal (s := .positive * .positive) (e := e₁ + e₂) hlog (by omega) hdescribes
  have hprod : ((m₁ * m₂ : ℕ) : ℚ) * 2 ^ (e₁ + e₂) = scaled m₁ e₁ * scaled m₂ e₂ := by
    rw [scaled, scaled, zpow_add₀ (by norm_num)]
    push_cast
    ring
  have hpack : (a * b).toModel = Float.Model.pack (.finite .positive m e hpos) := by
    show Float.Model.pack (UnpackedFloat.mul .binary64 a.toModel.unpack b.toModel.unpack) = _
    rw [hua, hub]
    exact congrArg Float.Model.pack hround
  rw [hprod] at herror hexact
  refine ⟨m, e, normal_of_pack hpack hm (by omega) (by omega), herror, fun n k hn hfits => ?_⟩
  rw [hexact n k hn hfits, hfits]

/-- The remainder of a division says where the quotient lies. -/
theorem describes_quotient (m : ℕ) {d : ℕ} (hd : 0 < d) :
    Describes (.ofMantissaAndAccuracy (m / d) (accuracyOfFraction (m % d) d)) ((m : ℚ) / d) := by
  have hdq : (0 : ℚ) < d := by exact_mod_cast hd
  have hdiv : (m : ℚ) = d * (m / d : ℕ) + (m % d : ℕ) := by
    exact_mod_cast (Nat.div_add_mod m d).symm
  have hlt : ((m % d : ℕ) : ℚ) < d := by exact_mod_cast Nat.mod_lt m hd
  have hquot : (m : ℚ) / d = (m / d : ℕ) + (m % d : ℕ) / d := by
    rw [div_eq_iff hdq.ne', add_mul, div_mul_cancel₀ _ hdq.ne']
    linarith
  rw [accuracyOfFraction]
  by_cases hzero : m % d = 0
  · rw [if_pos hzero, hquot, hzero]
    simp [Describes, ExtendedMantissa.ofMantissaAndAccuracy]
  · have hpos : (0 : ℚ) < (m % d : ℕ) := by exact_mod_cast Nat.pos_of_ne_zero hzero
    rw [if_neg hzero]
    cases hcmp : compare (2 * (m % d)) d with
    | lt =>
      have h2 : (2 * (m % d : ℕ) : ℚ) < d := by exact_mod_cast Nat.compare_eq_lt.mp hcmp
      rw [hquot]
      refine ⟨lt_add_of_pos_right _ (div_pos hpos hdq), add_lt_add_right ?_ _⟩
      rw [div_lt_iff₀ hdq]
      linarith
    | eq =>
      have h2 : (2 * (m % d : ℕ) : ℚ) = d := by exact_mod_cast Nat.compare_eq_eq.mp hcmp
      rw [hquot]
      refine congrArg _ ?_
      rw [div_eq_iff hdq.ne']
      linarith
    | gt =>
      have h2 : (d : ℚ) < 2 * (m % d : ℕ) := by exact_mod_cast Nat.compare_eq_gt.mp hcmp
      rw [hquot]
      refine ⟨add_lt_add_right ?_ _, add_lt_add_right ?_ _⟩
      · rw [lt_div_iff₀ hdq]
        linarith
      · rw [div_lt_iff₀ hdq]
        linarith

theorem divCore_normal {m₁ m₂ : ℕ} {e₁ e₂ : ℤ} (h₁ : m₁.log2 = 52) (h₂ : m₂.log2 = 52)
    (hlow : -900 ≤ e₁ - e₂) : divCore .binary64 m₁ e₁ m₂ e₂ =
      (m₁ * 2 ^ 53 / m₂, e₁ - e₂ - 53, accuracyOfFraction (m₁ * 2 ^ 53 % m₂) m₂) := by
  have hbits : (Format.binary64.mantissaBits : ℤ) = 53 := by decide
  have hmin : Format.binary64.minExponent = -1074 := by decide
  have htarget : min (e₁ - e₂)
      (Format.binary64.targetExponent (totalExponent m₁ e₁ - totalExponent m₂ e₂)) =
        e₁ - e₂ - 53 := by
    rw [Format.targetExponent, totalExponent, totalExponent, h₁, h₂, hbits, hmin]
    omega
  have hshift : (e₁ - e₂ - (e₁ - e₂ - 53)).toNat = 53 := by omega
  simp only [divCore, htarget, hshift, Nat.shiftLeft_eq]

theorem log2_quotient {m n : ℕ} (hm : 2 ^ 52 ≤ m ∧ m < 2 ^ 53) (hn : 2 ^ 52 ≤ n ∧ n < 2 ^ 53) :
    ∃ j, (m * 2 ^ 53 / n).log2 = 52 + j ∧ j ≤ 1 := by
  have hlow : 2 ^ 52 ≤ m * 2 ^ 53 / n := by
    rw [Nat.le_div_iff_mul_le (by omega)]
    omega
  have hhigh : m * 2 ^ 53 / n < 2 ^ 54 := by
    rw [Nat.div_lt_iff_lt_mul (by omega)]
    omega
  have hne : m * 2 ^ 53 / n ≠ 0 := by omega
  have h52 := (Nat.le_log2 hne).mpr hlow
  have h54 := (Nat.log2_lt hne).mpr hhigh
  exact ⟨(m * 2 ^ 53 / n).log2 - 52, by omega, by omega⟩

theorem Normal.div {a b : Float} {m₁ m₂ : ℕ} {e₁ e₂ : ℤ} (ha : Normal a m₁ e₁)
    (hb : Normal b m₂ e₂) (hlow : -900 ≤ e₁ - e₂) (hhigh : e₁ - e₂ ≤ 900) :
    ∃ m e, Normal (a / b) m e ∧
      |scaled m e - scaled m₁ e₁ / scaled m₂ e₂| ≤ scaled m₁ e₁ / scaled m₂ e₂ / 2 ^ 53 ∧
      ∀ (n : ℕ) (k : ℤ), n < 2 ^ 53 → scaled m₁ e₁ / scaled m₂ e₂ = scaled n k →
        scaled m e = scaled n k := by
  obtain ⟨hpa, hua⟩ := ha.unpacked
  obtain ⟨hpb, hub⟩ := hb.unpacked
  obtain ⟨j, hlog, hj⟩ := log2_quotient ha.bounds hb.bounds
  have hdescribes := describes_quotient (m₁ * 2 ^ 53) hpb
  obtain ⟨m, e, hpos, hround, hm, he, herror, hexact⟩ :=
    roundWithAccuracy_normal (s := .positive / .positive) (e := e₁ - e₂ - 53) hlog (by omega)
      hdescribes
  have hm₂ : (m₂ : ℚ) ≠ 0 := by exact_mod_cast hpb.ne'
  have hquot : ((m₁ * 2 ^ 53 : ℕ) : ℚ) / m₂ * 2 ^ (e₁ - e₂ - 53) =
      scaled m₁ e₁ / scaled m₂ e₂ := by
    rw [scaled, scaled, zpow_sub₀ (by norm_num), zpow_sub₀ (by norm_num)]
    push_cast
    field_simp
  have hpack : (a / b).toModel = Float.Model.pack (.finite .positive m e hpos) := by
    show Float.Model.pack (UnpackedFloat.div .binary64 a.toModel.unpack b.toModel.unpack) = _
    rw [hua, hub, UnpackedFloat.div, divCore_normal ha.digits hb.digits hlow]
    exact congrArg Float.Model.pack hround
  rw [hquot] at herror hexact
  refine ⟨m, e, normal_of_pack hpack hm (by omega) (by omega), herror, fun n k hn hfits => ?_⟩
  rw [hexact n k hn hfits, hfits]

/-! ## Conversions -/

theorem log2_mul_pow {n : ℕ} (hpos : 0 < n) (k : ℕ) : (n * 2 ^ k).log2 = n.log2 + k := by
  obtain ⟨hlow, hhigh⟩ := (Nat.log2_eq_iff (by omega)).mp (rfl : n.log2 = n.log2)
  rw [Nat.log2_eq_iff (by positivity), pow_add, Nat.add_right_comm, pow_add]
  exact ⟨Nat.mul_le_mul_right _ hlow, Nat.mul_lt_mul_of_pos_right hhigh (by positivity)⟩

/-- A natural number of at most 53 bits is converted without loss. -/
theorem normal_toFloat {n : ℕ} (hpos : 0 < n) (hlt : n < 2 ^ 53) :
    ∃ m e, Normal n.toUInt64.toFloat m e ∧ scaled m e = n ∧ -52 ≤ e ∧ e ≤ 1 := by
  have hlog : n.log2 < 53 := (Nat.log2_lt (by omega)).mpr hlt
  have hn : n.toUInt64.toNat = n := by
    rw [Nat.toUInt64_eq, UInt64.toNat_ofNat', Nat.mod_eq_of_lt (by omega)]
  have hbits : (Format.binary64.mantissaBits : ℤ) = 53 := by decide
  have hmin : Format.binary64.minExponent = -1074 := by decide
  have htarget : Format.binary64.targetExponent (totalExponent n 0) = n.log2 - 52 := by
    rw [Format.targetExponent, totalExponent, hbits, hmin]
    omega
  have hshift : (0 - ((n.log2 : ℤ) - 52)).toNat = 52 - n.log2 := by omega
  have hstart : (0 : ℤ) - (52 - n.log2 : ℕ) = n.log2 - 52 := by omega
  -- The significand is filled up with zeros first; then there is nothing to round.
  have hfull : (n * 2 ^ (52 - n.log2)).log2 = 52 + 0 := by
    rw [log2_mul_pow hpos]
    omega
  have hdescribes : Describes (.ofMantissaAndAccuracy (n * 2 ^ (52 - n.log2)) .exact)
      ((n * 2 ^ (52 - n.log2) : ℕ) : ℚ) := rfl
  obtain ⟨m, e, hm, hround, hdigits, he, _, hexact⟩ := roundWithAccuracy_normal (s := .positive)
    (e := (n.log2 : ℤ) - 52) hfull (by push_cast; omega) hdescribes
  have hvalue : ((n * 2 ^ (52 - n.log2) : ℕ) : ℚ) * 2 ^ ((n.log2 : ℤ) - 52) = scaled n 0 := by
    rw [← hstart, zero_sub, zpow_neg, zpow_natCast, scaled]
    push_cast
    field_simp
  have hpack : n.toUInt64.toFloat.toModel = Float.Model.pack (.finite .positive m e hm) := by
    show Float.Model.pack (UnpackedFloat.normalize .binary64 (n.toUInt64.toNat : ℤ) 0 .positive) = _
    rw [hn, UnpackedFloat.normalize, Int.compare_eq_gt.mpr (by omega)]
    simp only [Int.toNat_natCast, UnpackedFloat.round, htarget, decreaseExponent, hshift,
      Nat.shiftLeft_eq, hstart]
    rw [hround]
  refine ⟨m, e, normal_of_pack hpack hdigits (by omega) (by omega), ?_, by omega, by omega⟩
  rw [hexact n 0 hlt hvalue, hvalue, scaled, zpow_zero, mul_one]

/-! ## Powers of ten -/

/-- Whether a number is a power of ten as nearly as `2^53` parts of it, and exactly while that is
possible. Significand and power are compared in units of `2^(-52)`. -/
def isNearPower (k : ℕ) (x : Float) : Bool :=
  match x.toModel.unpack with
  | .finite .positive m e _ =>
    let value := m * 2 ^ (e + 52).toNat
    let power := 10 ^ k * 2 ^ 52
    m.log2 == 52 && decide (-52 ≤ e) && decide (e ≤ 110) &&
      decide (2 ^ 53 * (value - power) ≤ power) && decide (2 ^ 53 * (power - value) ≤ power) &&
      (decide (22 < k) || value == power)
  | _ => false

theorem isNearPower_powerOfTen : ∀ k < 47, isNearPower k (Json.Numeral.powerOfTen k) = true := by
  decide +kernel

theorem near_of_sub {value power : ℕ} (habove : 2 ^ 53 * (value - power) ≤ power)
    (hbelow : 2 ^ 53 * (power - value) ≤ power) : |(value : ℚ) - power| ≤ power / 2 ^ 53 := by
  have hup : (2 ^ 53 : ℚ) * (value - power) ≤ power := by
    have : 2 ^ 53 * value ≤ 2 ^ 53 * power + power := by omega
    have : (2 ^ 53 * value : ℚ) ≤ 2 ^ 53 * power + power := by exact_mod_cast this
    linarith
  have hdown : (2 ^ 53 : ℚ) * (power - value) ≤ power := by
    have : 2 ^ 53 * power ≤ 2 ^ 53 * value + power := by omega
    have : (2 ^ 53 * power : ℚ) ≤ 2 ^ 53 * value + power := by exact_mod_cast this
    linarith
  rw [abs_le]
  constructor <;> linarith

theorem normal_powerOfTen {k : ℕ} (hk : k < 47) :
    ∃ m e, Normal (Json.Numeral.powerOfTen k) m e ∧
      |scaled m e - 10 ^ k| ≤ 10 ^ k / 2 ^ 53 ∧ (k ≤ 22 → scaled m e = 10 ^ k) ∧
      -52 ≤ e ∧ e ≤ 110 := by
  have htest := isNearPower_powerOfTen k hk
  rw [isNearPower] at htest
  cases hx : (Json.Numeral.powerOfTen k).toModel.unpack with
  | infinity s => rw [hx] at htest; cases htest
  | notANumber => rw [hx] at htest; cases htest
  | zero s => rw [hx] at htest; cases htest
  | finite s m e hpos =>
    rw [hx] at htest
    cases s with
    | negative => cases htest
    | positive =>
      simp only [Bool.and_eq_true, beq_iff_eq, decide_eq_true_eq, Bool.or_eq_true] at htest
      obtain ⟨⟨⟨⟨⟨hlog, hlow⟩, hhigh⟩, habove⟩, hbelow⟩, hexact⟩ := htest
      have hvalue : scaled m e * 2 ^ 52 = (m * 2 ^ (e + 52).toNat : ℕ) := by
        have hexp : (2 : ℚ) ^ (e + 52).toNat = 2 ^ e * 2 ^ 52 := by
          rw [← zpow_natCast, Int.toNat_of_nonneg (by omega), zpow_add₀ (by norm_num)]
          rfl
        rw [scaled]
        push_cast
        rw [hexp]
        ring
      have hpower : (10 : ℚ) ^ k * 2 ^ 52 = (10 ^ k * 2 ^ 52 : ℕ) := by push_cast; rfl
      generalize m * 2 ^ (e + 52).toNat = value at hvalue habove hbelow hexact
      generalize 10 ^ k * 2 ^ 52 = power at hpower habove hbelow hexact
      have herror := near_of_sub habove hbelow
      refine ⟨m, e, ⟨⟨hpos, hx⟩, hlog, by omega, by omega⟩, ?_, fun hsmall => ?_, hlow, hhigh⟩
      · rw [← hvalue, ← hpower] at herror
        rw [← sub_mul, abs_mul, abs_of_pos (by positivity : (0 : ℚ) < 2 ^ 52)] at herror
        rw [le_div_iff₀ (by positivity)] at herror ⊢
        linarith
      · have heq : value = power := hexact.resolve_left (by omega)
        have hmul : scaled m e * 2 ^ 52 = 10 ^ k * 2 ^ 52 := by rw [hvalue, hpower, heq]
        exact mul_right_cancel₀ (by positivity) hmul

theorem Normal.isInf {x : Float} {m : ℕ} {e : ℤ} (h : Normal x m e) : x.isInf = false := by
  obtain ⟨hpos, hx⟩ := h.unpacked
  show x.toModel.unpack.isInf = false
  rw [hx]
  rfl

theorem Normal.pos {x : Float} {m : ℕ} {e : ℤ} (h : Normal x m e) : 0 < scaled m e := by
  have hm := h.bounds.1
  have : (0 : ℚ) < m := by
    have : 0 < m := by omega
    exact_mod_cast this
  rw [scaled]
  positivity

end Widgetry.Number

/-! ## Decimals -/

namespace Widgetry.Json.Numeral

open Number

/-- Two roundings, of a factor and of the product, amount to five parts in `2^54` at most. -/
theorem product_error {a t t' r : ℚ} (ha : 0 < a) (ht : 0 < t) (hfactor : |t' - t| ≤ t / 2 ^ 53)
    (hproduct : |r - a * t'| ≤ a * t' / 2 ^ 53) : |r - a * t| ≤ a * t * 5 / 2 ^ 54 := by
  rw [abs_le] at *
  have hup : a * t' ≤ a * (t + t / 2 ^ 53) := mul_le_mul_of_nonneg_left (by linarith) ha.le
  have hdown : a * (t - t / 2 ^ 53) ≤ a * t' := mul_le_mul_of_nonneg_left (by linarith) ha.le
  have hpos : 0 < a * t := mul_pos ha ht
  have hsplit : a * (t + t / 2 ^ 53) = a * t + a * t / 2 ^ 53 := by ring
  have hsplit' : a * (t - t / 2 ^ 53) = a * t - a * t / 2 ^ 53 := by ring
  rw [hsplit] at hup
  rw [hsplit'] at hdown
  constructor <;> linarith

/-- The same for a divisor and the quotient. -/
theorem quotient_error {a t t' r : ℚ} (ha : 0 < a) (ht : 0 < t) (hdivisor : |t' - t| ≤ t / 2 ^ 53)
    (hquotient : |r - a / t'| ≤ a / t' / 2 ^ 53) : |r - a / t| ≤ a / t * 5 / 2 ^ 54 := by
  rw [abs_le] at *
  have ht' : 0 < t' := by linarith
  have hq : 0 < a / t' := div_pos ha ht'
  have hpos : 0 < a / t := div_pos ha ht
  have hratio : a / t = a / t' * (t' / t) := by field_simp
  have hlow : 1 - 1 / 2 ^ 53 ≤ t' / t := by
    rw [le_div_iff₀ ht]
    linarith
  have hhigh : t' / t ≤ 1 + 1 / 2 ^ 53 := by
    rw [div_le_iff₀ ht]
    linarith
  have hup : a / t ≤ a / t' * (1 + 1 / 2 ^ 53) := by
    rw [hratio]
    exact mul_le_mul_of_nonneg_left hhigh hq.le
  have hdown : a / t' * (1 - 1 / 2 ^ 53) ≤ a / t := by
    rw [hratio]
    exact mul_le_mul_of_nonneg_left hlow hq.le
  constructor <;> linarith

theorem real?_of_nonneg {n p : ℕ} (hp : p ≤ topPower)
    (hinf : (n.toUInt64.toFloat * powerOfTen p).isInf = false) (negative : Bool) :
    real? negative n p = some (if negative then -(n.toUInt64.toFloat * powerOfTen p)
      else n.toUInt64.toFloat * powerOfTen p) := by
  have hmultiply : multiply? n.toUInt64.toFloat p = some (n.toUInt64.toFloat * powerOfTen p) := by
    rw [multiply?, if_pos hp]
    simp only [hinf, Bool.false_eq_true, if_false]
  show (multiply? n.toUInt64.toFloat p).map _ = _
  rw [hmultiply]
  rfl

theorem divide_of_le (parts : ℕ) (x : Float) {k : ℕ} (hk : k ≤ topPower) :
    divide (parts + 1) x k = x / powerOfTen k := by
  rw [divide, if_pos hk]

theorem real?_of_neg {n p : ℕ} (hp : p + 1 ≤ topPower) (negative : Bool) :
    real? negative n (.negSucc p) = some
      (if negative then -(n.toUInt64.toFloat / powerOfTen (p + 1))
        else n.toUInt64.toFloat / powerOfTen (p + 1)) := by
  rw [real?, divide_of_le 3 _ hp, Option.map_some]

/-- The double precision number that is made of a decimal: at most five parts in `2^54` off, and
exact if the power of ten is and the digits fit. -/
theorem real?_normal {n : ℕ} (hpos : 0 < n) (hlt : n < 2 ^ 53) {k : ℤ} (hlow : -46 ≤ k)
    (hhigh : k ≤ 46) : ∃ x m e,
      (∀ negative, real? negative n k = some (if negative then -x else x)) ∧ Normal x m e ∧
      |scaled m e - n * 10 ^ k| ≤ n * 10 ^ k * 5 / 2 ^ 54 ∧
      (-22 ≤ k → k ≤ 22 → ∀ (i : ℕ) (j : ℤ), i < 2 ^ 53 → (n : ℚ) * 10 ^ k = scaled i j →
        scaled m e = scaled i j) := by
  obtain ⟨mn, en, hn, hnvalue, hnlow, hnhigh⟩ := normal_toFloat hpos hlt
  have hnpos : (0 : ℚ) < n := by exact_mod_cast hpos
  cases k with
  | ofNat p =>
    obtain ⟨mp, ep, hpow, hperror, hpexact, hplow, hphigh⟩ :=
      normal_powerOfTen (k := p) (by simp at hhigh; omega)
    obtain ⟨m, e, hnormal, herror, hexact⟩ := hn.mul hpow (by omega) (by omega)
    have hcast : (10 : ℚ) ^ (Int.ofNat p) = 10 ^ p := zpow_natCast 10 p
    rw [hnvalue] at herror hexact
    have htop : p ≤ topPower := by
      simp at hhigh
      rw [topPower]
      omega
    refine ⟨_, m, e, real?_of_nonneg htop hnormal.isInf, hnormal, ?_, ?_⟩
    · rw [hcast]
      exact product_error hnpos (by positivity) hperror herror
    · intro _ hsmall i j hi hfits
      apply hexact i j hi
      rw [hpexact (by simp at hsmall; omega), ← hfits, hcast]
  | negSucc p =>
    obtain ⟨mp, ep, hpow, hperror, hpexact, hplow, hphigh⟩ :=
      normal_powerOfTen (k := p + 1) (by omega)
    obtain ⟨m, e, hnormal, herror, hexact⟩ := hn.div hpow (by omega) (by omega)
    have hcast : (n : ℚ) * 10 ^ (Int.negSucc p) = n / 10 ^ (p + 1) := by
      rw [zpow_negSucc, div_eq_mul_inv]
    rw [hnvalue] at herror hexact
    refine ⟨_, m, e, real?_of_neg (by rw [topPower]; omega), hnormal, ?_, ?_⟩
    · rw [hcast]
      exact quotient_error hnpos (by positivity) hperror herror
    · intro hsmall _ i j hi hfits
      apply hexact i j hi
      rw [hpexact (by omega), ← hfits, hcast]

end Widgetry.Json.Numeral
