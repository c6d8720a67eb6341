import Mathlib
import Widgetry.Proofs.Hexadecimal
import Widgetry.Proofs.Reread

/-!
# The two stored forms of a color

The text of a color is read as the nearest color whose channels are bytes (`Color.ofHex_toHex`), so
the text is exact where all channels are bytes already. That holds of every color that comes from a
text, which is why text stays text in one normal spelling, and it fails for every channel that is no
number or outside of the unit interval. All that is computed with single precision numbers is a
table of 256 bytes.
-/

namespace Widgetry.Color

open Text

/-! ## Bytes as channels -/

/-- A fact about every byte, as a table. -/
theorem of_byte {P : UInt8 → Prop} (h : ∀ n < 256, P (UInt8.ofNat n)) (b : UInt8) : P b := by
  have hb := h b.toNat b.toNat_lt
  rw [UInt8.ofNat_toNat] at hb
  exact hb

/-- The nearest byte of the channel of a byte is the byte. -/
theorem quantize_channel (b : UInt8) : quantize (channel b) = b :=
  of_byte (P := fun b => quantize (channel b) = b) (by decide +kernel) b

theorem channel_full : channel 255 = 1 := by decide +kernel

theorem quantize_one : quantize 1 = 255 := by rw [← channel_full, quantize_channel]

/-- A number from zero to one. -/
@[mk_iff] structure InUnit (v : Float32) : Prop where
  nonneg : 0 ≤ v
  le_one : v ≤ 1
  isInf : v.isInf = false
  isNaN : v.isNaN = false

instance (v : Float32) : Decidable (InUnit v) := decidable_of_iff' _ (inUnit_iff v)

theorem inUnit_channel (b : UInt8) : InUnit (channel b) :=
  of_byte (P := fun b => InUnit (channel b)) (by decide +kernel) b

theorem inUnit_zero : InUnit 0 := by decide +kernel

theorem inUnit_negZero : InUnit (-0) := by decide +kernel

/-- A number that equals the channel of a byte is that channel or a zero of either sign. -/
theorem eq_of_beq_channel {b : UInt8} {v : Float32} (h : (channel b == v) = true) :
    v = channel b ∨ v = 0 ∨ v = -0 := by
  obtain ⟨-, -, heq | ⟨-, hv⟩ | ⟨-, hv⟩⟩ := Float32.beq_iff_ne_nan_and_eq.mp h
  · exact .inl heq.symm
  · exact .inr (.inr hv)
  · exact .inr (.inl hv)

theorem inUnit_of_beq {b : UInt8} {v : Float32} (h : (channel b == v) = true) : InUnit v := by
  rcases eq_of_beq_channel h with rfl | rfl | rfl
  · exact inUnit_channel b
  · exact inUnit_zero
  · exact inUnit_negZero

theorem beq_self_of_isNaN {v : Float32} (h : v.isNaN = false) : (v == v) = true := by
  rw [Float32.isNaN_eq_decide_eq_nan, decide_eq_false_iff_not] at h
  exact Float32.beq_self_iff.mpr h

theorem channel_beq_self (b : UInt8) : (channel b == channel b) = true :=
  beq_self_of_isNaN (inUnit_channel b).isNaN

/-- If a channel is that of some byte, then it is that of its nearest byte. -/
theorem channel_quantize_iff {v : Float32} :
    (channel (quantize v) == v) = true ↔ ∃ b, (channel b == v) = true := by
  constructor
  · exact fun h => ⟨_, h⟩
  · intro h
    obtain ⟨b, hb⟩ := h
    rcases eq_of_beq_channel hb with rfl | rfl | rfl
    · rw [quantize_channel]
      exact channel_beq_self b
    · decide +kernel
    · decide +kernel

/-! ## The text of a color -/

def channels (c : Color) : List Float32 := [c.r, c.g, c.b, c.a]

/-- The nearest color whose channels are bytes. -/
def nearest (c : Color) : Color where
  r := channel (quantize c.r)
  g := channel (quantize c.g)
  b := channel (quantize c.b)
  a := channel (quantize c.a)

/-- The bytes in the text of a color. -/
def hexBytes (c : Color) : List UInt8 :=
  [quantize c.r, quantize c.g, quantize c.b] ++
    if quantize c.a = 255 then [] else [quantize c.a]

theorem toHex_eq (c : Color) : c.toHex = String.ofList ('#' :: c.hexBytes.flatMap hexByte) := by
  by_cases hfull : quantize c.a = 255 <;> simp [toHex, hexBytes, hfull]

theorem ofBytes?_hexBytes (c : Color) : ofBytes? c.hexBytes = some c.nearest := by
  unfold hexBytes nearest
  split
  case isTrue hfull =>
    rw [hfull, channel_full]
    rfl
  case isFalse => rfl

theorem digits_toHex (c : Color) : digits c.toHex = c.hexBytes.flatMap hexByte := by
  have hbytes := bytes?_hexByte c.hexBytes
  obtain ⟨hdigits, hlength, -⟩ := bytes?_eq_some hbytes
  have hsize : c.hexBytes.length = 3 ∨ c.hexBytes.length = 4 := by
    unfold hexBytes
    split <;> simp
  refine Spells.digits_eq ⟨⟨[], ['#'], [], ?_, .inr rfl, by simp, by simp⟩, ⟨by omega, hdigits⟩⟩
  rw [toHex_eq, String.toList_ofList]
  simp

/-- The text of a color is always read, as the nearest color. -/
theorem ofHex_toHex (c : Color) : ofHex c.toHex = .ok c.nearest := by
  refine ofHex_of_bytes ?_ c.ofBytes?_hexBytes
  rw [digits_toHex]
  exact bytes?_hexByte c.hexBytes

theorem hexBytes_nearest (c : Color) : c.nearest.hexBytes = c.hexBytes := by
  simp only [hexBytes, nearest, quantize_channel]

theorem toHex_nearest (c : Color) : c.nearest.toHex = c.toHex := by
  rw [toHex_eq, hexBytes_nearest, ← toHex_eq]

theorem nearest_nearest (c : Color) : c.nearest.nearest = c.nearest := by
  simp only [nearest, quantize_channel]

/-! ## The choice of a form -/

theorem hasExactHex_eq (c : Color) : c.hasExactHex = (c.nearest == c) := by
  rw [hasExactHex, ofHex_toHex]

/-- The text is exact if and only if every channel is that of a byte. -/
theorem hasExactHex_iff (c : Color) :
    c.hasExactHex = true ↔ ∀ v ∈ c.channels, ∃ b, (channel b == v) = true := by
  rw [hasExactHex_eq, beq_iff]
  simp only [channels, List.forall_mem_cons, List.not_mem_nil, false_implies, implies_true,
    and_true, ← channel_quantize_iff]
  rfl

theorem Pattern.form_of_exact {p : Pattern} (h : p.color.hasExactHex = true) :
    p.form = .text p.color.toHex := if_pos h

theorem Pattern.form_of_inexact {p : Pattern} (h : p.color.hasExactHex = false) :
    p.form = .channels p := if_neg (by simp [h])

theorem hasExactHex_nearest (c : Color) : c.nearest.hasExactHex = true := by
  rw [hasExactHex_eq, nearest_nearest, beq_iff]
  exact ⟨channel_beq_self _, channel_beq_self _, channel_beq_self _, channel_beq_self _⟩

theorem form_nearest (c : Color) : c.nearest.form = .text c.toHex := by
  rw [form_eq, if_pos c.hasExactHex_nearest, toHex_nearest]

/-! ## Text stays text -/

/-- A color that comes from bytes is its own nearest color. -/
theorem nearest_of_bytes {bytes : List UInt8} {c : Color} (h : ofBytes? bytes = some c) :
    c.nearest = c := by
  rcases ofBytes?_eq_some h with ⟨r, g, b, -, rfl⟩ | ⟨r, g, b, a, -, rfl⟩
  · simp only [nearest, quantize_channel, quantize_one, channel_full]
  · simp only [nearest, quantize_channel]

theorem hexByte_full_iff (b : UInt8) : hexByte b = ['f', 'f'] ↔ b = 255 :=
  of_byte (P := fun b => hexByte b = ['f', 'f'] ↔ b = 255) (by decide +kernel) b

/-- Digits in lower case, without a full alpha. -/
def normalDigits (d : List Char) : List Char :=
  let lower := d.map Char.toLower
  if lower.length = 8 ∧ lower.drop 6 = ['f', 'f'] then lower.take 6 else lower

/-- The bytes that are written for a color are those it was read from, but for a full alpha. -/
theorem normalDigits_eq {d : List Char} {bytes : List UInt8} {c : Color}
    (hb : bytes? d = some bytes) (hc : ofBytes? bytes = some c) :
    normalDigits d = c.hexBytes.flatMap hexByte := by
  obtain ⟨-, -, hlower⟩ := bytes?_eq_some hb
  rcases ofBytes?_eq_some hc with ⟨r, g, b, rfl, rfl⟩ | ⟨r, g, b, a, rfl, rfl⟩
  · have hsize : ([r, g, b].flatMap hexByte).length = 6 := by simp [hexByte_eq]
    simp only [normalDigits, hlower, hsize, hexBytes, quantize_channel, quantize_one, if_true,
      List.append_nil]
    exact if_neg (by simp)
  · have hsize : ([r, g, b, a].flatMap hexByte).length = 8 := by simp [hexByte_eq]
    have hlast : ([r, g, b, a].flatMap hexByte).drop 6 = hexByte a := by simp [hexByte_eq]
    have hshades : ([r, g, b, a].flatMap hexByte).take 6 = [r, g, b].flatMap hexByte := by
      simp [hexByte_eq]
    simp only [normalDigits, hlower, hsize, hlast, hshades, hexByte_full_iff, true_and, hexBytes,
      quantize_channel]
    -- Whether alpha is left out is decided by the digits here and by the byte there.
    by_cases hfull : a = 255
    · rw [if_pos hfull, if_pos hfull, List.append_nil]
    · rw [if_neg hfull, if_neg hfull]
      rfl

/-- A color that is read from a text is written as the digits of that text in lower case, without a
full alpha, and this is read as the same color. So it is stored as text again. The text of any color
whatever is read. -/
theorem hex_text_is_stable (s : String) (c : Color) :
    (ofHex s = .ok c →
      c.toHex = String.ofList ('#' :: normalDigits (digits s)) ∧
      ofHex c.toHex = .ok c ∧
      c.form = .text c.toHex ∧ Json.Codec.write c = .string c.toHex) ∧
    ∃ d, ofHex c.toHex = .ok d := by
  refine ⟨?_, c.nearest, c.ofHex_toHex⟩
  intro h
  obtain ⟨bytes, hb, hc⟩ := ofHex_eq_ok h
  have hself := nearest_of_bytes hc
  have hform : c.form = .text c.toHex := by
    have hnearest := c.form_nearest
    rw [hself] at hnearest
    exact hnearest
  refine ⟨?_, ?_, hform, ?_⟩
  · rw [toHex_eq, normalDigits_eq hb hc]
  · rw [ofHex_toHex, hself]
  · show c.form.document = _
    rw [hform]
    rfl

/-! ## Nothing is lost -/

/-- A stored form is read as the nearest color or as the bits themselves. -/
theorem Pattern.form_pattern (p : Pattern) :
    (p.color.hasExactHex = true ∧ p.form.pattern = .ok p.color.nearest.pattern) ∨
      (p.color.hasExactHex = false ∧ p.form.pattern = .ok p) := by
  cases h : p.color.hasExactHex with
  | true =>
    refine .inl ⟨rfl, ?_⟩
    rw [form_of_exact h, Form.pattern, ofHex_toHex]
    rfl
  | false => exact .inr ⟨rfl, by rw [form_of_inexact h, Form.pattern]⟩

theorem Pattern.form_text_iff (p : Pattern) :
    (∃ hex, p.form = .text hex) ↔ p.color.hasExactHex = true := by
  cases h : p.color.hasExactHex with
  | true => simp [form_of_exact h]
  | false => simp [form_of_inexact h]

/-- A color, given by its bits, is stored as text if and only if the text is read as an equal color,
which is if and only if each channel equals a byte over 255. So a channel that is no number,
infinite or outside of the unit interval makes it an array, which holds these very bits. What is
read from either form is stored in the same way again. It equals the color channel by channel,
unless a channel is no number, and what is read from an array is the color itself, bit by bit. -/
theorem stored_form_is_lossless (p : Pattern) :
    ((∃ hex, p.form = .text hex) ↔ ∃ d, ofHex p.color.toHex = .ok d ∧ (d == p.color) = true) ∧
    ((∃ hex, p.form = .text hex) ↔
      ∀ v ∈ p.color.channels, ∃ b : UInt8, (b.toFloat32 / 255 == v) = true) ∧
    ((∃ v ∈ p.color.channels, v.isNaN ∨ v.isInf ∨ ¬ (0 ≤ v ∧ v ≤ 1)) → p.form = .channels p) ∧
    ∃ q, p.form.pattern = .ok q ∧ q.form = p.form ∧
      ((∀ v ∈ p.color.channels, v.isNaN = false) →
        q.color.r == p.color.r ∧ q.color.g == p.color.g ∧ q.color.b == p.color.b ∧
          q.color.a == p.color.a) ∧
      ∀ bits, p.form = .channels bits → q = p := by
  refine ⟨?_, ?_, ?_, ?_⟩
  · rw [p.form_text_iff, hasExactHex_eq]
    constructor
    · exact fun heq => ⟨p.color.nearest, p.color.ofHex_toHex, heq⟩
    · intro h
      obtain ⟨d, hd, heq⟩ := h
      rw [ofHex_toHex] at hd
      cases hd
      exact heq
  · rw [p.form_text_iff, hasExactHex_iff]
    rfl
  · intro h
    obtain ⟨v, hv, hout⟩ := h
    apply Pattern.form_of_inexact
    rw [← Bool.not_eq_true, hasExactHex_iff]
    intro hbytes
    obtain ⟨b, hb⟩ := hbytes v hv
    have hin := inUnit_of_beq hb
    rcases hout with hnan | hinf | hrange
    · rw [hin.isNaN] at hnan
      cases hnan
    · rw [hin.isInf] at hinf
      cases hinf
    · exact hrange ⟨hin.nonneg, hin.le_one⟩
  · rcases p.form_pattern with ⟨hexact, hpattern⟩ | ⟨hexact, hpattern⟩
    · refine ⟨p.color.nearest.pattern, hpattern, ?_, ?_, ?_⟩
      · rw [Pattern.form_of_exact hexact]
        exact p.color.form_nearest
      · intro _
        rw [hasExactHex_eq, beq_iff] at hexact
        rw [pattern_color]
        exact hexact
      · intro bits hbits
        rw [Pattern.form_of_exact hexact] at hbits
        cases hbits
    · refine ⟨p, hpattern, rfl, ?_, fun _ _ => rfl⟩
      intro hnumbers
      simp only [channels, List.forall_mem_cons] at hnumbers
      obtain ⟨hr, hg, hb, ha, -⟩ := hnumbers
      exact ⟨beq_self_of_isNaN hr, beq_self_of_isNaN hg, beq_self_of_isNaN hb,
        beq_self_of_isNaN ha⟩

end Widgetry.Color
