import Widgetry.Number.Layout
import Widgetry.Proofs.Doubles
import Widgetry.Proofs.Numerals
import Widgetry.Proofs.Shortest

/-!
# Single precision numbers in texts

A finite number is written with its shortest digits, read at double precision and rounded back to
single precision. It is the same number that comes back, to the bit.
-/

namespace Widgetry.Number

open Float.Model Float.Model.UnpackedFloat

/-! ## Patterns of finite numbers -/

theorem pattern_of_decode {b m : ℕ} {e : ℤ} {negative : Bool} (hb : b < 2 ^ 32)
    (h : binary32.decode b = .finite negative m e) :
    (m = 0 ∧ e = -149 ∨ Canonical m e) ∧
      b = binary32.signBit negative + ((e + 149).toNat * 2 ^ 23 + m) := by
  have hmin : binary32.minExponent = -149 := by decide
  have htop : binary32.topField = 255 := by decide
  have hfraction : Nat.pow 2 binary32.fractionBits = 2 ^ 23 := by decide
  have hfield : Nat.pow 2 binary32.exponentBits = 2 ^ 8 := by decide
  have hsign : Nat.pow 2 (binary32.exponentBits + binary32.fractionBits) = 2 ^ 31 := by decide
  simp only [Format.decode, hmin, htop, hfraction, hfield, hsign] at h
  simp only [Format.signBit, hsign]
  split at h
  case isTrue => split at h <;> cases h
  case isFalse hnotop =>
    split at h
    case isTrue hzero =>
      cases h
      refine ⟨?_, by simp only [beq_iff_eq]; split <;> omega⟩
      by_cases hm : b % 2 ^ 23 = 0
      · exact .inl ⟨hm, rfl⟩
      · exact .inr ⟨by omega, by omega, by omega, by omega, .inl rfl⟩
    case isFalse hnozero =>
      cases h
      exact ⟨.inr ⟨by omega, by omega, by omega, by omega, .inr (by omega)⟩,
        by simp only [beq_iff_eq]; split <;> omega⟩

theorem beq_self {x : Float32} (h : isFinite x = true) : (x == x) = true := by
  rw [Float32.beq_self_iff]
  rintro rfl
  cases h

/-! ## Rounding back -/

theorem Normal.unpack64_signed {y : Float} {m : ℕ} {e : ℤ} (h : Normal y m e) (negative : Bool) :
    Number.unpack64 (if negative then -y else y) = .finite negative m e := by
  cases negative with
  | false => exact h.unpack64
  | true =>
    obtain ⟨hpos, hy⟩ := h.unpacked
    have hneg : (-y).toModel.unpack = .finite .negative m e hpos := by
      show (Float.Model.pack (UnpackedFloat.neg y.toModel.unpack)).unpack = _
      rw [hy]
      exact unpack_pack_normal hpos h.digits h.low h.high
    have hdecode : Number.unpack64 (-y) = binary64.ofUnpacked (-y).toModel.unpack :=
      decode_unpack binary64_matches (-y).toModel.toBits.toBitVec
    rw [if_pos rfl, hdecode, hneg]
    rfl

variable {x : Float32} {m : ℕ} {e : ℤ} {negative : Bool}

/-- The number is the one with its pattern. -/
theorem eq_ofBits (hx : unpack32 x = .finite negative m e) :
    x = Float32.ofBits (binary32.signBit negative + ((e + 149).toNat * 2 ^ 23 + m)).toUInt32 := by
  rw [← (pattern_of_decode x.toBits.toNat_lt hx).2, Nat.toUInt32_eq, UInt32.ofNat_toNat,
    Float32.ofBits_toBits]

/-- A double in the interval of a number is rounded to the number. -/
theorem narrow_eq (hx : unpack32 x = .finite negative m e) (hc : Canonical m e) {y : Float} {n : ℕ}
    {i : ℤ} (hy : Normal y n i) (h : (binary32.interval m e).Contains (scaled n i)) :
    narrow (if negative then -y else y) = x := by
  rw [narrow, hy.unpack64_signed, Format.encode, magnitude_eq hc h, ← eq_ofBits hx]

/-- Beside the midpoint with the closest decimal the double is on the right side as well. -/
theorem narrow_closest : ∀ negative, ∀ m ∈ [11420669, 11420670],
    (binary32.shortest m (-107)).exponent < 0 ∧
      (Json.Numeral.real? negative (binary32.shortest m (-107)).digits
        (binary32.shortest m (-107)).exponent).map narrow =
        some (Float32.ofBits
          (binary32.signBit negative + ((-107 + 149 : ℤ).toNat * 2 ^ 23 + m)).toUInt32) := by
  decide +kernel

/-- What a decimal is read as has its value. -/
theorem readAs_value {d n : ℕ} {k j : ℤ} (h : Json.ReadAs d k n j) :
    (n : ℚ) * 10 ^ j = d * 10 ^ k := by
  rcases h with ⟨rfl, rfl⟩ | ⟨hk, rfl, _, rfl⟩
  · rfl
  · have hpow : (10 : ℚ) ^ k = 10 ^ k.toNat := by
      rw [← zpow_natCast, Int.toNat_of_nonneg hk]
    rw [hpow]
    push_cast
    rw [pow_succ, zpow_neg_one]
    field_simp

/-- Its digits fit a double, and its power of ten is exact if the one of the decimal is. -/
theorem readAs_bounds {d n : ℕ} {k j : ℤ} (h : Json.ReadAs d k n j) (hpos : 0 < d)
    (hlt : d < 2 ^ 28) (hlow : -45 ≤ k) (hhigh : k ≤ 38) : 0 < n ∧ n < 2 ^ 53 ∧ -46 ≤ j ∧ j ≤ 46 ∧
      (-22 ≤ k → k ≤ 22 → -22 ≤ j ∧ j ≤ 22) := by
  rcases h with ⟨rfl, rfl⟩ | ⟨hk, hn, hbound, rfl⟩
  · omega
  · have hnpos : 0 < n := by rw [hn]; positivity
    omega

/-- The shortest decimal of a number is read as the number. -/
theorem narrow_shortest (hx : unpack32 x = .finite negative m e) (hc : Canonical m e) :
    ∃ d k, binary32.shortest m e = ⟨d, k⟩ ∧ 0 < d ∧ d < 2 ^ 28 ∧ -45 ≤ k ∧ k ≤ 38 ∧
      ∀ n j, Json.ReadAs d k n j →
        ∃ y, Json.Numeral.real? negative n j = some y ∧ narrow y = x := by
  obtain ⟨d, k, hshort, hcontains, hcentred, hpos, hlt, hlow, hhigh⟩ := shortest_spec hc
  refine ⟨d, k, hshort, hpos, hlt, hlow, hhigh, fun n j hread => ?_⟩
  obtain ⟨hnpos, hnlt, hjlow, hjhigh, hsmall⟩ := readAs_bounds hread hpos hlt hlow hhigh
  obtain ⟨y, i, f, hreal, hnormal, hclose, hexact⟩ :=
    Json.Numeral.real?_normal hnpos hnlt hjlow hjhigh
  rw [readAs_value hread] at hclose hexact
  have hmet : -22 ≤ k → k ≤ 22 → ∀ a b, a < 2 ^ 53 → (d : ℚ) * 10 ^ k = scaled a b →
      scaled i f = d * 10 ^ k := by
    intro hklow hkhigh a b ha hab
    obtain ⟨hjlow, hjhigh⟩ := hsmall hklow hkhigh
    rw [hab]
    exact hexact hjlow hjhigh a b ha hab
  -- The error bound decides everywhere but beside one midpoint, where the double is computed.
  rcases contains_of_close hc hpos hcontains hcentred hclose hmet with hin | ⟨rfl, hm⟩
  · exact ⟨_, hreal negative, narrow_eq hx hc hnormal hin⟩
  · obtain ⟨hneg, hmap⟩ := narrow_closest negative m (by simp [hm])
    rw [hshort] at hneg hmap
    obtain ⟨rfl, rfl⟩ : n = d ∧ j = k := by
      rcases hread with h | ⟨hk, _⟩
      · exact h
      · exact absurd hk (by simpa using hneg)
    rw [← eq_ofBits hx] at hmap
    exact Option.map_eq_some_iff.mp hmap

theorem narrow_zero : ∀ negative, (Json.Numeral.real? negative 0 (-1)).map narrow =
    some (Float32.ofBits
      (binary32.signBit negative + ((-149 + 149 : ℤ).toNat * 2 ^ 23 + 0)).toUInt32) := by
  decide +kernel

/-- The digits of a finite number are read as the number. -/
theorem magnitude_reads (hx : unpack32 x = .finite negative m e) : ∃ y,
    Json.Reads (Json.Reader.unsigned negative)
      (if m = 0 then ['0', '.', '0'] else Layout.single.decimal (binary32.shortest m e))
      (some (.real y)) ∧ narrow y = x := by
  rcases (pattern_of_decode x.toBits.toNat_lt hx).1 with ⟨rfl, rfl⟩ | hc
  · have hzero := narrow_zero negative
    rw [← eq_ofBits hx] at hzero
    obtain ⟨y, hreal, hy⟩ := Option.map_eq_some_iff.mp hzero
    have hdigit : Json.Gathers Json.Numeral.significandLimit 0 ['0'] 0 :=
      Json.gathers_cons.mpr ⟨0, rfl, by decide, Json.gathers_nil.mpr rfl⟩
    have hread := Json.Reader.unsigned_fraction negative (List.cons_ne_nil '0' []) hdigit (.inl rfl)
      (List.cons_ne_nil '0' []) hdigit .none
    have hplaces : (0 : ℤ) - (['0'].length : ℕ) = -1 := rfl
    rw [hplaces, hreal] at hread
    exact ⟨y, hread, hy⟩
  · obtain ⟨d, k, hshort, hpos, hlt, hlow, hhigh, hvalue⟩ := narrow_shortest hx hc
    obtain ⟨n, j, has, hread⟩ := Json.decimal_reads hpos hlt hlow hhigh
    obtain ⟨y, hreal, hy⟩ := hvalue n j has
    have hread := hread negative
    rw [hreal] at hread
    rw [if_neg hc.pos.ne', hshort]
    exact ⟨y, hread, hy⟩

/-- The text of a finite number is read as the number, to the bit. -/
theorem text_reads_back (h : isFinite x = true) : ∃ text n,
    Layout.single.text? binary32 (unpack32 x) = some text ∧
      Json.Reads Json.Reader.numeral text (some n) ∧ n.toFloat32 = x ∧
      ∃ c tail, text = c :: tail ∧ (c = '-' || Json.Numeral.isDigit c) = true := by
  rw [isFinite] at h
  cases hx : unpack32 x with
  | nan => rw [hx] at h; cases h
  | infinite negative => rw [hx] at h; cases h
  | finite negative m e =>
    obtain ⟨y, hread, hy⟩ := magnitude_reads hx
    have hhead := Json.head_of_reads hread
    refine ⟨_, .real y, rfl, Json.numeral_reads hhead hread, hy, ?_⟩
    cases negative with
    | true => exact ⟨'-', _, rfl, rfl⟩
    | false =>
      obtain ⟨c, tail, htext, hc⟩ := hhead
      exact ⟨c, tail, htext, by simp [hc]⟩

end Widgetry.Number
