import Widgetry.Color

/-!
# Colors in hexadecimal text

Reading a color tests the size of the digits in bytes, walks over their characters and cuts them at
byte offsets, and each of these sees the text in its own way. `Color.Spells` is the grammar that
they amount to. Once the test has passed every character takes one byte, so all cuts fall between
characters, and all pairs are numbers: no text is turned away for another reason than its shape.
-/

namespace Widgetry

namespace Text

/-! ## Digits -/

/-- What holds of the digits below 128 holds of all digits. -/
theorem of_isHexDigit {P : Char → Prop}
    (h : ∀ n < 128, isHexDigit (Char.ofNat n) = true → P (Char.ofNat n)) {c : Char}
    (hc : isHexDigit c = true) : P c := by
  have hlt : c.toNat < 128 := by
    simp only [isHexDigit, Bool.or_eq_true, Bool.and_eq_true, decide_eq_true_eq, Char.le_def,
      UInt32.le_iff_toNat_le] at hc
    have hnine : '9'.val.toNat = 57 := rfl
    have hf : 'f'.val.toNat = 102 := rfl
    have hF : 'F'.val.toNat = 70 := rfl
    show c.val.toNat < 128
    omega
  have hdigit := h c.toNat hlt
  rw [Char.ofNat_toNat] at hdigit
  exact hdigit hc

/-- A digit takes one byte, is not blank and no sign. -/
theorem hexDigit_plain {c : Char} (h : isHexDigit c = true) :
    c.utf8Size = 1 ∧ isBlank c = false ∧ c ≠ '+' :=
  of_isHexDigit (P := fun c => c.utf8Size = 1 ∧ isBlank c = false ∧ c ≠ '+') (by decide +kernel) h

/-- The value of a digit in either case: its place among all of them. -/
def digitValue (c : Char) : Nat :=
  ['0', '1', '2', '3', '4', '5', '6', '7', '8', '9', 'a', 'b', 'c', 'd', 'e', 'f'].idxOf c.toLower

theorem hexValue?_eq {c : Char} (h : isHexDigit c = true) : hexValue? c = some (digitValue c) :=
  of_isHexDigit (P := fun c => hexValue? c = some (digitValue c)) (by decide +kernel) h

/-- What has a value is a digit, and in lower case it is the digit of that value. -/
theorem hexValue?_eq_some {c : Char} {v : Nat} (h : hexValue? c = some v) :
    isHexDigit c = true ∧ v < 16 ∧ c.toLower = Nat.digitChar v := by
  have hdigit : isHexDigit c = true := by
    simp only [isHexDigit, Bool.or_eq_true, Bool.and_eq_true, decide_eq_true_eq]
    unfold hexValue? at h
    split at h
    case isTrue hrange => exact .inl (.inl hrange)
    case isFalse =>
      split at h
      case isTrue hrange => exact .inl (.inr hrange)
      case isFalse =>
        split at h
        case isTrue hrange => exact .inr hrange
        case isFalse => cases h
  have hvalue := of_isHexDigit
    (P := fun c => ∀ v ∈ hexValue? c, v < 16 ∧ c.toLower = Nat.digitChar v) (by decide +kernel)
    hdigit
  exact ⟨hdigit, hvalue v h⟩

theorem hexValue?_digitChar {v : Nat} (h : v < 16) : hexValue? (Nat.digitChar v) = some v := by
  have hall : ∀ v < 16, hexValue? (Nat.digitChar v) = some v := by decide +kernel
  exact hall v h

theorem hexByte_eq (b : UInt8) :
    hexByte b = [Nat.digitChar (b.toNat / 16), Nat.digitChar (b.toNat % 16)] := by
  have hlt := b.toNat_lt
  have hhigh : b.toNat / 16 % 16 = b.toNat / 16 := Nat.mod_eq_of_lt (by omega)
  rw [hexByte, hexDigits, hexDigits, hexDigits, hhigh]
  rfl

/-- Two digits are a number that fits a byte. -/
theorem byteOfHex?_pair {x y : Char} {h l : Nat} (hx : hexValue? x = some h)
    (hy : hexValue? y = some l) : byteOfHex? [x, y] = some (16 * h + l).toUInt8 := by
  obtain ⟨hxdigit, hh, -⟩ := hexValue?_eq_some hx
  obtain ⟨-, hl, -⟩ := hexValue?_eq_some hy
  have hplus : x ≠ '+' := (hexDigit_plain hxdigit).2.2
  have hnumber : hexNumber? [x, y] = some (16 * h + l) := by
    simp [hexNumber?, hx, hy]
  have hfits : 16 * h + l < 256 := by omega
  unfold byteOfHex?
  split
  case h_1 heq =>
    rw [List.cons.injEq] at heq
    exact absurd heq.1 hplus
  case h_2 => simp [hnumber, hfits]

/-! ## Blanks -/

theorem trimLeft_append {before rest : List Char} (hbefore : ∀ c ∈ before, isBlank c = true)
    (hrest : ∀ c ∈ rest.head?, isBlank c = false) : trimLeft (before ++ rest) = rest := by
  rw [trimLeft, List.dropWhile_append_of_pos hbefore]
  cases rest with
  | nil => rfl
  | cons c rest => exact List.dropWhile_cons_of_neg (by simpa using hrest c rfl)

/-- What has no blanks at its ends is left when the blanks around it are taken away. -/
theorem trim_append {before core after : List Char} (hbefore : ∀ c ∈ before, isBlank c = true)
    (hafter : ∀ c ∈ after, isBlank c = true) (hne : core ≠ [])
    (hcore : ∀ c ∈ core, isBlank c = false) : trim (before ++ (core ++ after)) = core := by
  have hleft : trimLeft (before ++ (core ++ after)) = core ++ after := by
    apply trimLeft_append hbefore
    intro c hc
    rw [List.head?_append, Option.or_of_isSome (List.isSome_head?.mpr hne)] at hc
    exact hcore c (List.mem_of_mem_head? hc)
  have hright : trimLeft (core ++ after).reverse = core.reverse := by
    rw [List.reverse_append]
    apply trimLeft_append
    · intro c hc
      exact hafter c (List.mem_reverse.mp hc)
    · intro c hc
      exact hcore c (List.mem_reverse.mp (List.mem_of_mem_head? hc))
  rw [trim, hleft, hright, List.reverse_reverse]

/-- Only blanks are taken away. -/
theorem trim_split (s : List Char) : ∃ before after, s = before ++ (trim s ++ after) ∧
    (∀ c ∈ before, isBlank c = true) ∧ ∀ c ∈ after, isBlank c = true := by
  have hall (l : List Char) : ∀ c ∈ l.takeWhile isBlank, isBlank c = true :=
    fun c hc => List.all_eq_true.mp List.all_takeWhile c hc
  have hleft : s = s.takeWhile isBlank ++ trimLeft s := List.takeWhile_append_dropWhile.symm
  have hright : trimLeft s = trim s ++ ((trimLeft s).reverse.takeWhile isBlank).reverse := by
    rw [trim, ← List.reverse_append]
    exact (List.reverse_eq_iff.mpr List.takeWhile_append_dropWhile).symm
  refine ⟨s.takeWhile isBlank, ((trimLeft s).reverse.takeWhile isBlank).reverse, ?_, hall s, ?_⟩
  · rw [← hright]
    exact hleft
  · intro c hc
    exact hall _ c (List.mem_reverse.mp hc)

/-! ## Cuts -/

@[simp] theorem byteSize_nil : byteSize [] = 0 := rfl

@[simp] theorem byteSize_cons (c : Char) (s : List Char) :
    byteSize (c :: s) = c.utf8Size + byteSize s := rfl

/-- A text of digits takes one byte for each. -/
theorem byteSize_of_digits {s : List Char} (h : ∀ c ∈ s, isHexDigit c = true) :
    byteSize s = s.length := by
  induction s with
  | nil => rfl
  | cons c s ih =>
    rw [List.forall_mem_cons] at h
    rw [byteSize_cons, ih h.2, (hexDigit_plain h.1).1, List.length_cons, Nat.add_comm]

theorem byteSize_eq_zero {s : List Char} : byteSize s = 0 ↔ s = [] := by
  cases s with
  | nil => simp
  | cons c s =>
    have hpos := c.utf8Size_pos
    simp [Nat.ne_of_gt hpos]

/-- What is cut off behind the start has the first character in it. -/
theorem cons_cut_iff {n : Nat} {c : Char} {s before after : List Char} (hn : 0 < n) :
    c :: s = before ++ after ∧ byteSize before = n ↔
      ∃ rest, before = c :: rest ∧ s = rest ++ after ∧ c.utf8Size + byteSize rest = n := by
  cases before with
  | nil => simp [Nat.ne_of_lt hn]
  | cons x before =>
    simp only [List.cons_append, List.cons.injEq, byteSize_cons]
    constructor
    · intro h
      obtain ⟨⟨rfl, htext⟩, hsize⟩ := h
      exact ⟨before, ⟨rfl, rfl⟩, htext, hsize⟩
    · intro h
      obtain ⟨rest, ⟨rfl, rfl⟩, htext, hsize⟩ := h
      exact ⟨⟨rfl, htext⟩, hsize⟩

/-- A cut falls between two characters, with the given number of bytes before it. -/
theorem cut?_eq_some_iff {n : Nat} {s before after : List Char} :
    cut? n s = some (before, after) ↔ s = before ++ after ∧ byteSize before = n := by
  fun_induction cut? n s generalizing before after with
  | case1 s =>
    rw [byteSize_eq_zero, Option.some.injEq, Prod.mk.injEq]
    constructor
    · intro h
      obtain ⟨rfl, rfl⟩ := h
      exact ⟨rfl, rfl⟩
    · intro h
      obtain ⟨rfl, rfl⟩ := h
      exact ⟨rfl, rfl⟩
  | case2 n =>
    simp only [reduceCtorEq, false_iff]
    intro h
    obtain ⟨hnil, hsize⟩ := h
    rw [eq_comm, List.append_eq_nil_iff] at hnil
    rw [hnil.1, byteSize_nil] at hsize
    cases hsize
  | case3 n c s hle ih =>
    rw [cons_cut_iff n.succ_pos, Option.map_eq_some_iff]
    constructor
    · intro h
      obtain ⟨⟨rest, left⟩, hcut, heq⟩ := h
      cases heq
      obtain ⟨htext, hsize⟩ := ih.mp hcut
      exact ⟨rest, rfl, htext, by omega⟩
    · intro h
      obtain ⟨rest, rfl, htext, hsize⟩ := h
      exact ⟨(rest, after), ih.mpr ⟨htext, by omega⟩, rfl⟩
  | case4 n c s hlt =>
    rw [cons_cut_iff n.succ_pos]
    simp only [reduceCtorEq, false_iff]
    intro h
    obtain ⟨rest, -, -, hsize⟩ := h
    omega

theorem slice?_append (before slice after : List Char) :
    slice? (byteSize before) (byteSize slice) (before ++ (slice ++ after)) = some slice := by
  have houter : cut? (byteSize before) (before ++ (slice ++ after)) =
      some (before, slice ++ after) := cut?_eq_some_iff.mpr ⟨rfl, rfl⟩
  have hinner : cut? (byteSize slice) (slice ++ after) = some (slice, after) :=
    cut?_eq_some_iff.mpr ⟨rfl, rfl⟩
  simp [slice?, houter, hinner]

end Text

namespace Color

open Text

/-! ## Pairs of digits -/

theorem bytes?_pair {x y : Char} {rest : List Char} {bytes : List UInt8} :
    bytes? (x :: y :: rest) = some bytes ↔ ∃ u v tail, hexValue? x = some u ∧
      hexValue? y = some v ∧ bytes? rest = some tail ∧ bytes = (16 * u + v).toUInt8 :: tail := by
  simp only [bytes?, Option.bind_eq_bind, Option.bind_eq_some_iff]
  constructor
  · intro h
    obtain ⟨u, hx, v, hy, tail, hrest, heq⟩ := h
    cases heq
    exact ⟨u, v, tail, hx, hy, hrest, rfl⟩
  · intro h
    obtain ⟨u, v, tail, hx, hy, hrest, rfl⟩ := h
    exact ⟨u, hx, v, hy, tail, hrest, rfl⟩

/-- The byte that two digits stand for. -/
def byteOf (high low : Char) : UInt8 := (16 * digitValue high + digitValue low).toUInt8

theorem bytes?_cons {x y : Char} {rest : List Char} {bytes : List UInt8}
    (hx : isHexDigit x = true) (hy : isHexDigit y = true) (hrest : bytes? rest = some bytes) :
    bytes? (x :: y :: rest) = some (byteOf x y :: bytes) :=
  bytes?_pair.mpr ⟨_, _, bytes, hexValue?_eq hx, hexValue?_eq hy, hrest, rfl⟩

theorem toNat_pair {h l : Nat} (hh : h < 16) (hl : l < 16) :
    (16 * h + l).toUInt8.toNat = 16 * h + l := by
  rw [Nat.toUInt8_eq]
  exact UInt8.toNat_ofNat_of_lt' (by show 16 * h + l < 256; omega)

/-- The digits are those of the bytes, in either case. -/
theorem bytes?_eq_some {d : List Char} {bytes : List UInt8} (h : bytes? d = some bytes) :
    (∀ c ∈ d, isHexDigit c = true) ∧ d.length = 2 * bytes.length ∧
      d.map Char.toLower = bytes.flatMap hexByte := by
  fun_induction bytes? d generalizing bytes with
  | case1 =>
    cases h
    exact ⟨by simp, rfl, rfl⟩
  | case2 => cases h
  | case3 x y rest ih =>
    obtain ⟨u, v, tail, hx, hy, hrest, rfl⟩ := bytes?_pair.mp h
    obtain ⟨hxdigit, hu, hxlower⟩ := hexValue?_eq_some hx
    obtain ⟨hydigit, hv, hylower⟩ := hexValue?_eq_some hy
    obtain ⟨hdigits, hlength, hlower⟩ := ih hrest
    have hhigh : (16 * u + v) / 16 = u := by omega
    have hlow : (16 * u + v) % 16 = v := by omega
    refine ⟨?_, ?_, ?_⟩
    · simp only [List.forall_mem_cons]
      exact ⟨hxdigit, hydigit, hdigits⟩
    · simp only [List.length_cons]
      omega
    · rw [List.flatMap_cons, ← hlower, hexByte_eq, toNat_pair hu hv, hhigh, hlow, ← hxlower,
        ← hylower]
      rfl

theorem bytes?_of_digits {d : List Char} (h : ∀ c ∈ d, isHexDigit c = true)
    (heven : d.length % 2 = 0) : ∃ bytes, bytes? d = some bytes := by
  fun_induction bytes? d with
  | case1 => exact ⟨[], rfl⟩
  | case2 c => cases heven
  | case3 x y rest ih =>
    simp only [List.forall_mem_cons] at h
    obtain ⟨hx, hy, hrest⟩ := h
    simp only [List.length_cons] at heven
    obtain ⟨bytes, hbytes⟩ := ih hrest (by omega)
    exact ⟨_, bytes?_cons hx hy hbytes⟩

theorem bytes?_hexByte (bytes : List UInt8) : bytes? (bytes.flatMap hexByte) = some bytes := by
  induction bytes with
  | nil => rfl
  | cons b bytes ih =>
    have hlt := b.toNat_lt
    have hhigh := hexValue?_digitChar (show b.toNat / 16 < 16 by omega)
    have hlow := hexValue?_digitChar (show b.toNat % 16 < 16 by omega)
    have hbyte : b = (16 * (b.toNat / 16) + b.toNat % 16).toUInt8 := by
      rw [Nat.div_add_mod, Nat.toUInt8_eq, UInt8.ofNat_toNat]
    rw [List.flatMap_cons, hexByte_eq]
    exact bytes?_pair.mpr ⟨_, _, _, hhigh, hlow, ih, by rw [← hbyte]⟩

/-! ## Reading -/

/-- A channel is found by its place among the bytes: the digits before it take one byte each. -/
theorem channelAt_bytes (before : List Char) {d : List Char} {bytes : List UInt8}
    (hbefore : ∀ c ∈ before, isHexDigit c = true) (h : bytes? d = some bytes) {i : Nat}
    (hi : i < bytes.length) :
    channelAt (before ++ d) (before.length + 2 * i) = .ok (channel bytes[i]) := by
  fun_induction bytes? d generalizing before bytes i with
  | case1 =>
    cases h
    cases hi
  | case2 => cases h
  | case3 x y rest ih =>
    obtain ⟨u, v, tail, hx, hy, hrest, rfl⟩ := bytes?_pair.mp h
    have hxdigit := (hexValue?_eq_some hx).1
    have hydigit := (hexValue?_eq_some hy).1
    have hpair : ∀ c ∈ [x, y], isHexDigit c = true := by simp [hxdigit, hydigit]
    cases i with
    | zero =>
      have hslice := slice?_append before [x, y] rest
      rw [byteSize_of_digits hbefore, byteSize_of_digits hpair] at hslice
      have hbyte := byteOfHex?_pair hx hy
      show channelAt (before ++ ([x, y] ++ rest)) before.length = _
      unfold channelAt
      simp only [List.length_cons, List.length_nil] at hslice
      simp only [hslice, hbyte]
      rfl
    | succ i =>
      have hfurther : ∀ c ∈ before ++ [x, y], isHexDigit c = true := by
        intro c hc
        rcases List.mem_append.mp hc with hc | hc
        · exact hbefore c hc
        · exact hpair c hc
      have hstep := ih (before ++ [x, y]) hfurther hrest (i := i) (by simpa using hi)
      have hplace : (before ++ [x, y]).length + 2 * i = before.length + 2 * (i + 1) := by
        simp only [List.length_append, List.length_cons, List.length_nil]
        omega
      rw [List.append_assoc, hplace] at hstep
      exact hstep

/-- The color of three or four bytes; it is opaque without a fourth one. -/
def ofBytes? : List UInt8 → Option Color
  | [r, g, b] => some ⟨channel r, channel g, channel b, 1⟩
  | [r, g, b, a] => some ⟨channel r, channel g, channel b, channel a⟩
  | _ => none

theorem ofBytes?_isSome (bytes : List UInt8) (h : bytes.length = 3 ∨ bytes.length = 4) :
    ∃ c, ofBytes? bytes = some c := by
  match bytes, h with
  | [r, g, b], _ => exact ⟨_, rfl⟩
  | [r, g, b, a], _ => exact ⟨_, rfl⟩

theorem ofBytes?_eq_some {bytes : List UInt8} {c : Color} (h : ofBytes? bytes = some c) :
    (∃ r g b, bytes = [r, g, b] ∧ c = ⟨channel r, channel g, channel b, 1⟩) ∨
      ∃ r g b a, bytes = [r, g, b, a] ∧ c = ⟨channel r, channel g, channel b, channel a⟩ := by
  unfold ofBytes? at h
  split at h
  case h_1 r g b => exact .inl ⟨r, g, b, rfl, (Option.some.inj h).symm⟩
  case h_2 r g b a => exact .inr ⟨r, g, b, a, rfl, (Option.some.inj h).symm⟩
  case h_3 => cases h

/-- Six or eight hexadecimal digits. -/
structure Shaped (d : List Char) : Prop where
  size : d.length = 6 ∨ d.length = 8
  digits : ∀ c ∈ d, isHexDigit c = true

/-- The size in bytes and the test of each character together leave such digits only. -/
theorem shaped_iff {d : List Char} :
    (byteSize d = 6 ∨ byteSize d = 8) ∧ d.all isHexDigit = true ↔ Shaped d := by
  rw [List.all_eq_true]
  constructor
  · intro h
    obtain ⟨hsize, hdigits⟩ := h
    rw [byteSize_of_digits hdigits] at hsize
    exact ⟨hsize, hdigits⟩
  · intro h
    obtain ⟨hsize, hdigits⟩ := h
    rw [byteSize_of_digits hdigits]
    exact ⟨hsize, hdigits⟩

/-- Behind the test nothing stops the reading. -/
theorem ofDigits_of_bytes {d : List Char} {bytes : List UInt8} {c : Color}
    (hb : bytes? d = some bytes) (hc : ofBytes? bytes = some c) : ofDigits d = .ok c := by
  obtain ⟨hdigits, hlength, -⟩ := bytes?_eq_some hb
  have hsize := byteSize_of_digits hdigits
  have hchannel (i : Nat) (hi : i < bytes.length) :
      channelAt d (2 * i) = .ok (channel bytes[i]) := by
    have h := channelAt_bytes [] (by simp) hb hi
    rw [List.nil_append, List.length_nil, Nat.zero_add] at h
    exact h
  rcases ofBytes?_eq_some hc with ⟨r, g, b, rfl, rfl⟩ | ⟨r, g, b, a, rfl, rfl⟩
  · have hsix : d.length = 6 := hlength
    have hred : channelAt d 0 = .ok (channel r) := hchannel 0 (by simp)
    have hgreen : channelAt d 2 = .ok (channel g) := hchannel 1 (by simp)
    have hblue : channelAt d 4 = .ok (channel b) := hchannel 2 (by simp)
    rw [ofDigits, if_pos (shaped_iff.mpr ⟨.inl hsix, hdigits⟩), hsize, hsix, if_neg (by decide),
      hred, hgreen, hblue]
    rfl
  · have height : d.length = 8 := hlength
    have hred : channelAt d 0 = .ok (channel r) := hchannel 0 (by simp)
    have hgreen : channelAt d 2 = .ok (channel g) := hchannel 1 (by simp)
    have hblue : channelAt d 4 = .ok (channel b) := hchannel 2 (by simp)
    have halpha : channelAt d 6 = .ok (channel a) := hchannel 3 (by simp)
    rw [ofDigits, if_pos (shaped_iff.mpr ⟨.inr height, hdigits⟩), hsize, height, if_pos rfl,
      halpha, hred, hgreen, hblue]
    rfl

/-- All that can come of reading digits. -/
theorem ofDigits_cases (d : List Char) :
    (Shaped d ∧ ∃ bytes c, bytes? d = some bytes ∧ ofBytes? bytes = some c ∧ ofDigits d = .ok c) ∨
      (¬ Shaped d ∧ ofDigits d = .error .shape) := by
  by_cases h : Shaped d
  · obtain ⟨bytes, hb⟩ := bytes?_of_digits h.digits (by have := h.size; omega)
    have hlength := (bytes?_eq_some hb).2.1
    obtain ⟨c, hc⟩ := ofBytes?_isSome bytes (by have := h.size; omega)
    exact .inl ⟨h, bytes, c, hb, hc, ofDigits_of_bytes hb hc⟩
  · refine .inr ⟨h, ?_⟩
    rw [← shaped_iff] at h
    exact if_neg h

/-! ## The grammar -/

/-- The text is made of the given six or eight digits, blanks around them, and at most one mark
before them. -/
structure Spells (s : String) (d : List Char) : Prop where
  text : ∃ before mark after, s.toList = before ++ (mark ++ d ++ after) ∧
    (mark = [] ∨ mark = ['#']) ∧
    (∀ c ∈ before, isBlank c = true) ∧ ∀ c ∈ after, isBlank c = true
  shaped : Shaped d

theorem Shaped.ne_nil {d : List Char} (h : Shaped d) : d ≠ [] := by
  intro hnil
  have hsize := h.size
  rw [hnil] at hsize
  cases hsize <;> contradiction

theorem dropMark_of_digits {d : List Char} (h : ∀ c ∈ d, isHexDigit c = true) : dropMark d = d := by
  unfold dropMark
  split
  case h_1 rest =>
    have hmark := h '#' List.mem_cons_self
    cases hmark
  case h_2 => rfl

/-- The digits that a text spells are those that are found in it. -/
theorem Spells.digits_eq {s : String} {d : List Char} (h : Spells s d) : digits s = d := by
  obtain ⟨before, mark, after, htext, hmark, hbefore, hafter⟩ := h.text
  have hdigits (c : Char) (hc : c ∈ d) : isBlank c = false :=
    (hexDigit_plain (h.shaped.digits c hc)).2.1
  rw [digits, htext]
  rcases hmark with rfl | rfl
  · rw [List.nil_append, trim_append hbefore hafter h.shaped.ne_nil hdigits,
      dropMark_of_digits h.shaped.digits]
  · have hcore : ∀ c ∈ '#' :: d, isBlank c = false := by
      rw [List.forall_mem_cons]
      exact ⟨by decide, hdigits⟩
    rw [List.singleton_append, trim_append hbefore hafter (List.cons_ne_nil _ _) hcore]
    rfl

theorem spells_digits {s : String} (h : Shaped (digits s)) : Spells s (digits s) := by
  obtain ⟨before, after, htext, hbefore, hafter⟩ := trim_split s.toList
  refine ⟨?_, h⟩
  rw [digits] at h ⊢
  generalize trim s.toList = t at htext h ⊢
  unfold dropMark
  split
  case h_1 rest => exact ⟨before, ['#'], after, htext, .inr rfl, hbefore, hafter⟩
  case h_2 => exact ⟨before, [], after, htext, .inl rfl, hbefore, hafter⟩

theorem ofHex_of_bytes {s : String} {bytes : List UInt8} {c : Color}
    (hb : bytes? (digits s) = some bytes) (hc : ofBytes? bytes = some c) : ofHex s = .ok c := by
  rw [ofHex, ofDigits_of_bytes hb hc]
  rfl

/-- What a text is read as is told by the bytes of its digits. -/
theorem ofHex_eq_ok {s : String} {c : Color} (h : ofHex s = .ok c) :
    ∃ bytes, bytes? (digits s) = some bytes ∧ ofBytes? bytes = some c := by
  rcases ofDigits_cases (digits s) with ⟨-, bytes, d, hb, hd, -⟩ | ⟨-, hstop⟩
  · rw [ofHex_of_bytes hb hd] at h
    cases h
    exact ⟨bytes, hb, hd⟩
  · rw [ofHex, hstop] at h
    cases h

/-- Six digits are an opaque color. -/
theorem Spells.six {s : String} {r r' g g' b b' : Char} (h : Spells s [r, r', g, g', b, b']) :
    ofHex s = .ok ⟨(byteOf r r').toFloat32 / 255, (byteOf g g').toFloat32 / 255,
      (byteOf b b').toFloat32 / 255, 1⟩ := by
  have hdigits := h.shaped.digits
  simp only [List.forall_mem_cons] at hdigits
  obtain ⟨hr, hr', hg, hg', hb, hb', -⟩ := hdigits
  have hnil : bytes? [] = some [] := rfl
  have hbytes := bytes?_cons hr hr' (bytes?_cons hg hg' (bytes?_cons hb hb' hnil))
  rw [← h.digits_eq] at hbytes
  exact ofHex_of_bytes hbytes rfl

/-- With eight digits the last two are alpha. -/
theorem Spells.eight {s : String} {r r' g g' b b' a a' : Char}
    (h : Spells s [r, r', g, g', b, b', a, a']) :
    ofHex s = .ok ⟨(byteOf r r').toFloat32 / 255, (byteOf g g').toFloat32 / 255,
      (byteOf b b').toFloat32 / 255, (byteOf a a').toFloat32 / 255⟩ := by
  have hdigits := h.shaped.digits
  simp only [List.forall_mem_cons] at hdigits
  obtain ⟨hr, hr', hg, hg', hb, hb', ha, ha', -⟩ := hdigits
  have hnil : bytes? [] = some [] := rfl
  have hbytes :=
    bytes?_cons hr hr' (bytes?_cons hg hg' (bytes?_cons hb hb' (bytes?_cons ha ha' hnil)))
  rw [← h.digits_eq] at hbytes
  exact ofHex_of_bytes hbytes rfl

/-- A text is read as a color if and only if it is six or eight hexadecimal digits, with blanks
around them and at most one mark before them allowed. Each channel is then the byte that its pair of
digits stands for, over 255, and alpha is one where its pair is missing; any other text is returned
whole in the refusal. No cut falls outside of the digits or into a character, and each pair that is
cut out is a number. -/
theorem hex_grammar (s : String) :
    ((∃ c, ofHex s = .ok c) ↔ ∃ d, Spells s d) ∧
    (∀ r r' g g' b b', Spells s [r, r', g, g', b, b'] →
      ofHex s = .ok ⟨(byteOf r r').toFloat32 / 255, (byteOf g g').toFloat32 / 255,
        (byteOf b b').toFloat32 / 255, 1⟩) ∧
    (∀ r r' g g' b b' a a', Spells s [r, r', g, g', b, b', a, a'] →
      ofHex s = .ok ⟨(byteOf r r').toFloat32 / 255, (byteOf g g').toFloat32 / 255,
        (byteOf b b').toFloat32 / 255, (byteOf a a').toFloat32 / 255⟩) ∧
    ((∀ d, ¬ Spells s d) → ofHex s = .error ⟨s⟩) ∧
    ∀ o, ofDigits (digits s) = .error o → o = .shape := by
  rcases ofDigits_cases (digits s) with ⟨hshaped, bytes, c, hb, hc, hread⟩ | ⟨hshaped, hstop⟩
  · have hspells : Spells s (digits s) := spells_digits hshaped
    have hhex : ofHex s = .ok c := ofHex_of_bytes hb hc
    refine ⟨⟨fun _ => ⟨_, hspells⟩, fun _ => ⟨c, hhex⟩⟩, fun _ _ _ _ _ _ => Spells.six,
      fun _ _ _ _ _ _ _ _ => Spells.eight, ?_, ?_⟩
    · intro hnone
      exact absurd hspells (hnone _)
    · intro o ho
      rw [hread] at ho
      cases ho
  · have hnone (d : List Char) : ¬ Spells s d := by
      intro hd
      rw [hd.digits_eq] at hshaped
      exact hshaped hd.shaped
    have hhex : ofHex s = .error ⟨s⟩ := by
      rw [ofHex, hstop]
      rfl
    refine ⟨⟨?_, ?_⟩, fun _ _ _ _ _ _ => Spells.six, fun _ _ _ _ _ _ _ _ => Spells.eight,
      fun _ => hhex, ?_⟩
    · intro h
      obtain ⟨c, hc⟩ := h
      rw [hhex] at hc
      cases hc
    · intro h
      obtain ⟨d, hd⟩ := h
      exact absurd hd (hnone d)
    · intro o ho
      rw [hstop] at ho
      cases ho
      rfl

-- Six bytes in four characters, and pairs that are numbers by their sign.
example : ∀ s ∈ ["\uff41abc", "+1+2+3"],
    byteSize (digits s) = 6 ∧ (ofHex s).toOption.isNone = true := by
  decide +kernel

end Color

end Widgetry
