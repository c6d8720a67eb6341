import Mathlib
import Widgetry.Number.Binary

/-!
# Bit patterns of floating-point numbers

`Format.decode` and the unpacking behind the operations on numbers read the same fields of a bit
pattern, so they agree (`decode_unpack`). Unpacking undoes packing on normal numbers.
-/

namespace Widgetry.Number

open Float.Model Float.Model.UnpackedFloat

/-- The widths of a format are those of an unpacking. -/
structure Format.Matches (f : Format) (spec : Float.Model.Format) : Prop where
  fraction : f.fractionBits = spec.mantissaBitsWithoutImplicit
  exponent : f.exponentBits = spec.exponentBits

theorem binary64_matches : binary64.Matches Float.Model.Format.binary64 := ⟨rfl, rfl⟩

/-- Whether a sign is the negative one. -/
def isNegative : Sign → Bool
  | .negative => true
  | .positive => false

section Fields

variable {spec : Float.Model.Format} (b : BitVec spec.numBits)

theorem unpackMantissa_toNat :
    (unpackMantissa b).toNat = b.toNat % Nat.pow 2 spec.mantissaBitsWithoutImplicit := by
  rw [unpackMantissa_def, BitVec.extractLsb'_toNat, Nat.shiftRight_zero]
  rfl

theorem unpackExponent_toNat :
    (unpackExponent b).toNat =
      b.toNat / Nat.pow 2 spec.mantissaBitsWithoutImplicit % Nat.pow 2 spec.exponentBits := by
  rw [unpackExponent_def, BitVec.extractLsb'_toNat, Nat.shiftRight_eq_div_pow]
  rfl

theorem unpackSign_toNat :
    (unpackSign b).toNat =
      b.toNat / Nat.pow 2 (spec.mantissaBitsWithoutImplicit + spec.exponentBits) % 2 := by
  rw [unpackSign_def, BitVec.extractLsb'_toNat, Nat.shiftRight_eq_div_pow]
  rfl

theorem isNegative_ofBitVec (s : BitVec 1) : isNegative (Sign.ofBitVec s) = (s.toNat % 2 == 1) := by
  revert s
  decide

end Fields

/-- An unpacked number in the terms of a format. -/
def Format.ofUnpacked (f : Format) : UnpackedFloat → Unpacked
  | .notANumber => .nan
  | .infinity s => .infinite (isNegative s)
  | .zero s => .finite (isNegative s) 0 f.minExponent
  | .finite s m e _ => .finite (isNegative s) m e

theorem Format.Matches.bias {f : Format} {spec : Float.Model.Format} (h : f.Matches spec) :
    f.minExponent = 1 - (spec.exponentBias + spec.mantissaBitsWithoutImplicit : Int) := by
  have hpos : 1 ≤ 2 ^ (spec.exponentBits - 1) := Nat.one_le_two_pow
  have hpow : Nat.pow 2 (spec.exponentBits - 1) = 2 ^ (spec.exponentBits - 1) := rfl
  rw [Format.minExponent, h.fraction, h.exponent, Float.Model.Format.exponentBias, hpow]
  omega

theorem append_one {width : Nat} (v : BitVec width) :
    (1#1 ++ v).toNat = v.toNat + Nat.pow 2 width := by
  rw [BitVec.toNat_append, ← Nat.shiftLeft_add_eq_or_of_lt v.isLt, Nat.shiftLeft_eq]
  simp [Nat.add_comm]

/-- Both readings of a pattern agree. -/
theorem decode_unpack {f : Format} {spec : Float.Model.Format} (h : f.Matches spec)
    (b : BitVec spec.numBits) : f.decode b.toNat = f.ofUnpacked (UnpackedFloat.unpack spec b) := by
  have hbias := h.bias
  have hfraction := unpackMantissa_toNat b
  have hfield := unpackExponent_toNat b
  have hsign : (b.toNat / Nat.pow 2 (f.exponentBits + f.fractionBits) % 2 == 1) =
      isNegative (Sign.ofBitVec (unpackSign b)) := by
    rw [isNegative_ofBitVec, unpackSign_toNat, Nat.mod_mod, h.fraction, h.exponent, Nat.add_comm]
  have htop : (unpackExponent b).toNat = f.topField ↔ unpackExponent b = -1#_ := by
    rw [← BitVec.toNat_inj, BitVec.neg_one_eq_allOnes, BitVec.toNat_allOnes, Format.topField,
      h.exponent]
    rfl
  have hzero : (unpackExponent b).toNat = 0 ↔ unpackExponent b = 0#_ := by
    rw [← BitVec.toNat_inj]
    rfl
  have hnone : (unpackMantissa b).toNat = 0 ↔ unpackMantissa b = 0#_ := by
    rw [← BitVec.toNat_inj]
    rfl
  rw [Format.decode, hsign, h.fraction, h.exponent, ← hfraction, ← hfield]
  simp only [htop, hzero, hnone, UnpackedFloat.unpack]
  by_cases hinfinite : unpackExponent b = -1#_
  · by_cases hm : unpackMantissa b = 0#_ <;> simp [hinfinite, hm, Format.ofUnpacked]
  · rw [if_neg hinfinite, if_neg hinfinite]
    by_cases hsub : unpackExponent b = 0#_
    · have hfield0 : ((unpackExponent b).toNat : Int) = 0 := by
        rw [hzero.mpr hsub]
        rfl
      rw [if_pos hsub, if_pos hsub]
      by_cases hm : unpackMantissa b = 0#_
      · rw [dif_pos hm, hnone.mpr hm]
        rfl
      · rw [dif_neg hm, Format.ofUnpacked, hfield0, hbias]
        congr 1
        omega
    · have hpos : (unpackExponent b).toNat ≠ 0 := fun h0 => hsub (hzero.mp h0)
      rw [if_neg hsub, if_neg hsub, Format.ofUnpacked, append_one]
      congr 1
      omega

/-! ## Packing -/

section Packing

variable {spec : Float.Model.Format}

/-- A normal number is unpacked as it was packed. -/
theorem unpack_pack {s : Sign} {m : Nat} {e : Int} (hpos : 0 < m)
    (hm : m.log2 = spec.mantissaBitsWithoutImplicit)
    (hlow : 1 ≤ e + spec.exponentBias + spec.mantissaBitsWithoutImplicit)
    (hhigh : e + spec.exponentBias + spec.mantissaBitsWithoutImplicit + 1 <
      (2 ^ spec.exponentBits : Nat)) :
    UnpackedFloat.unpack spec (UnpackedFloat.pack spec (.finite s m e hpos)) =
      .finite s m e hpos := by
  obtain ⟨hmlow, hmhigh⟩ := (Nat.log2_eq_iff (by omega)).mp hm
  have hfield : (BitVec.ofNat spec.exponentBits
      (e + spec.exponentBias + spec.mantissaBitsWithoutImplicit).toNat).toNat =
        (e + spec.exponentBias + spec.mantissaBitsWithoutImplicit).toNat := by
    rw [BitVec.toNat_ofNat, Nat.mod_eq_of_lt (by omega)]
  have hnotop : BitVec.ofNat spec.exponentBits
      (e + spec.exponentBias + spec.mantissaBitsWithoutImplicit).toNat ≠ -1#_ := by
    rw [Ne, ← BitVec.toNat_inj, hfield, BitVec.neg_one_eq_allOnes, BitVec.toNat_allOnes]
    omega
  have hnozero : BitVec.ofNat spec.exponentBits
      (e + spec.exponentBias + spec.mantissaBitsWithoutImplicit).toNat ≠ 0#_ := by
    rw [Ne, ← BitVec.toNat_inj, hfield]
    simp only [BitVec.toNat_ofNat, Nat.zero_mod]
    omega
  have hmantissa : (1#1 ++ BitVec.ofNat spec.mantissaBitsWithoutImplicit m).toNat = m := by
    have hmod : m % 2 ^ spec.mantissaBitsWithoutImplicit =
        m - 2 ^ spec.mantissaBitsWithoutImplicit := by
      rw [Nat.pow_succ] at hmhigh
      rw [Nat.mod_eq_sub_mod hmlow, Nat.mod_eq_of_lt (by omega)]
    have hpow : Nat.pow 2 spec.mantissaBitsWithoutImplicit =
        2 ^ spec.mantissaBitsWithoutImplicit := rfl
    rw [append_one, BitVec.toNat_ofNat, hmod, hpow]
    omega
  simp only [UnpackedFloat.pack]
  rw [if_neg (by omega), if_pos (by rw [hm, Float.Model.Format.mantissaBits]; omega)]
  simp only [UnpackedFloat.unpack, unpackMantissa_packComponents, unpackExponent_packComponents,
    unpackSign_packComponents, Sign.ofBitVec_toBitVec, hmantissa, hfield]
  rw [if_neg hnotop, if_neg hnozero]
  congr 1
  omega

end Packing

end Widgetry.Number
