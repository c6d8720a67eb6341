import Widgetry.Proofs.Numerals
import Widgetry.Proofs.Quotes

/-!
# Well-formed texts

The grammar of JSON, said without the readers: `IsNumber`, `IsQuoted` for what stands between
quotes, and `IsValue` with blanks wherever they may stand. A well-formed number or string is read
the same wherever it stands (`numeral_steady`, `readsQuoted_steady`), though it may be refused: a
number can be too large, and half of a surrogate pair is no character.
-/

namespace Widgetry.Json

/-! ## Numbers -/

/-- Digits, at least one of them. -/
def Digits (s : List Char) : Prop := s ≠ [] ∧ ∀ c ∈ s, Numeral.isDigit c = true

/-- The digits of an integer: no zero in front, unless there is nothing else. -/
def IsWhole (s : List Char) : Prop := Digits s ∧ (s = ['0'] ∨ s.head? ≠ some '0')

inductive IsFraction : List Char → Prop where
  | none : IsFraction []
  | some {digits : List Char} : Digits digits → IsFraction ('.' :: digits)

inductive IsExponent : List Char → Prop where
  | none : IsExponent []
  | some {letter : Char} {sign digits : List Char} : letter = 'e' ∨ letter = 'E' →
      sign = [] ∨ sign = ['+'] ∨ sign = ['-'] → Digits digits →
      IsExponent (letter :: (sign ++ digits))

inductive IsNumber : List Char → Prop where
  | mk (negative : Bool) {whole fraction exponent : List Char} : IsWhole whole →
      IsFraction fraction → IsExponent exponent →
      IsNumber ((if negative then ['-'] else []) ++ (whole ++ (fraction ++ exponent)))

/-! ## Strings -/

/-- The letters that may follow a backslash and the characters that they stand for. -/
def escapes : List (Char × Char) :=
  [('"', '"'), ('\\', '\\'), ('/', '/'), ('b', '\x08'), ('f', '\x0c'), ('n', '\n'), ('r', '\r'),
    ('t', '\t')]

/-- Four hexadecimal digits and their number. -/
def IsUnit (digits : List Char) (n : Nat) : Prop :=
  digits.length = 4 ∧ Text.hexNumber? digits = some n

/-- Whether a character may stand for itself between quotes. -/
def IsPlain (c : Char) : Prop := ¬ c < ' ' ∧ c ≠ '"' ∧ c ≠ '\\'

/-- What may stand between quotes. -/
inductive IsQuoted : List Char → Prop where
  | nil : IsQuoted []
  | plain {c : Char} {s : List Char} : IsPlain c → IsQuoted s → IsQuoted (c :: s)
  | letter {c d : Char} {s : List Char} : (c, d) ∈ escapes → IsQuoted s →
      IsQuoted ('\\' :: c :: s)
  | unit {digits s : List Char} {n : Nat} : IsUnit digits n → IsQuoted s →
      IsQuoted ('\\' :: 'u' :: (digits ++ s))

/-- What may stand between quotes for a string. A character beyond the first 65536 is a pair of
numbered escapes, of which neither stands for a character alone. -/
inductive Spelled : List Char → List Char → Prop where
  | nil : Spelled [] []
  | plain {c : Char} {s k : List Char} : IsPlain c → Spelled s k → Spelled (c :: s) (c :: k)
  | letter {c d : Char} {s k : List Char} : (c, d) ∈ escapes → Spelled s k →
      Spelled ('\\' :: c :: s) (d :: k)
  | unit {digits s k : List Char} {n : Nat} : IsUnit digits n → n < 0xd800 ∨ 0xdfff < n →
      Spelled s k → Spelled ('\\' :: 'u' :: (digits ++ s)) (Char.ofNat n :: k)
  | pair {high low s k : List Char} {n m : Nat} : IsUnit high n → IsUnit low m →
      0xd800 ≤ n ∧ n ≤ 0xdbff → 0xdc00 ≤ m ∧ m ≤ 0xdfff → Spelled s k →
      Spelled ('\\' :: 'u' :: (high ++ '\\' :: 'u' :: (low ++ s)))
        (Char.ofNat (0x10000 + (n - 0xd800) * 0x400 + (m - 0xdc00)) :: k)

theorem Spelled.isQuoted {s k : List Char} (h : Spelled s k) : IsQuoted s := by
  induction h with
  | nil => exact .nil
  | plain hc _ ih => exact .plain hc ih
  | letter hc _ ih => exact .letter hc ih
  | unit hn _ _ ih => exact .unit hn ih
  | pair hn hm _ _ _ ih => exact .unit hn (.unit hm ih)

/-! ## Values -/

/-- Nothing but space. -/
abbrev Blanks : Type := { s : List Char // Blank s }

/-- A part of a text and the blanks around it. -/
structure Padded where
  before : Blanks
  text : List Char
  after : Blanks

def Padded.chars (p : Padded) : List Char := p.before ++ (p.text ++ p.after)

/-- A key, without its quotes, and a value. -/
structure Member where
  key : Padded
  value : Padded

def Member.chars (m : Member) : List Char :=
  m.key.before ++ '"' :: (m.key.text ++ '"' :: (m.key.after ++ ':' :: m.value.chars))

/-- Parts with commas between them, and one in front of the first unless nothing comes before. -/
def listed : Bool → List (List Char) → List Char
  | _, [] => []
  | first, part :: rest => (if first then [] else [',']) ++ (part ++ listed false rest)

def listChars (items : List Padded) (gap : Blanks) : List Char :=
  '[' :: (listed true (items.map Padded.chars) ++ (gap ++ [']']))

def objectChars (members : List Member) (gap : Blanks) : List Char :=
  '\x7b' :: (listed true (members.map Member.chars) ++ (gap ++ ['\x7d']))

/-- A JSON value, without blanks around it. -/
inductive IsValue : List Char → Prop where
  | null : IsValue ['n', 'u', 'l', 'l']
  | true : IsValue ['t', 'r', 'u', 'e']
  | false : IsValue ['f', 'a', 'l', 's', 'e']
  | number {s : List Char} : IsNumber s → IsValue s
  | string {s : List Char} : IsQuoted s → IsValue ('"' :: (s ++ ['"']))
  | list {items : List Padded} {gap : Blanks} : (∀ p ∈ items, IsValue p.text) →
      IsValue (listChars items gap)
  | object {members : List Member} {gap : Blanks} : (∀ m ∈ members, IsQuoted m.key.text) →
      (∀ m ∈ members, IsValue m.value.text) → IsValue (objectChars members gap)

/-! ## Numbers wherever they stand -/

/-- What a reader gives for a text that stands alone. -/
def Reader.alone {α : Type} (r : Reader α) (s : List Char) : Option α :=
  match r s with
  | .ok a _ => some a
  | .error _ _ => none

theorem Yields.alone_eq {α : Type} {r : Reader α} {s rest : List Char} {o : Option α}
    (h : Yields o rest (r s)) : r.alone s = o := by
  rw [Reader.alone]
  cases o with
  | some a => rw [yields_some.mp h]
  | none =>
    obtain ⟨f, left, hf⟩ := yields_none.mp h
    rw [hf]

theorem Reads.alone {α : Type} {r : Reader α} {s : List Char} {o : Option α} (h : Reads r s o) :
    r.alone s = o := by
  have hread := h [] ended_nil
  rw [List.append_nil] at hread
  exact hread.alone_eq

open Numeral

theorem Digits.head {s : List Char} (h : Digits s) :
    ∃ c tail, s = c :: tail ∧ isDigit c = true := by
  obtain ⟨c, tail, rfl⟩ := List.exists_cons_of_ne_nil h.1
  exact ⟨c, tail, rfl, h.2 c List.mem_cons_self⟩

theorem dropWhile_digits {s rest : List Char} (h : ∀ c ∈ s, isDigit c = true)
    (hrest : NoDigit rest) : (s ++ rest).dropWhile isDigit = rest := by
  rw [List.dropWhile_append_of_pos h]
  cases rest with
  | nil => rfl
  | cons c rest => exact List.dropWhile_cons_of_neg (by simp [hrest c rfl])

theorem dropDigits_append {s rest : List Char} (h : ∀ c ∈ s, isDigit c = true)
    (hrest : NoDigit rest) : dropDigits (s ++ rest) = (s.length, rest) := by
  have htake : (s ++ rest).takeWhile isDigit = s := by
    rw [List.takeWhile_append_of_pos h]
    cases rest with
    | nil => exact List.append_nil s
    | cons c rest =>
      rw [List.takeWhile_cons_of_neg (by simp [hrest c rfl]), List.append_nil]
  rw [dropDigits, htake, dropWhile_digits h hrest]

/-- What a significand has no room for is left. -/
theorem gather_left_mem (limit n : Nat) (s : List Char) :
    ∀ c ∈ (gather limit n s).2.2, c ∈ s := by
  induction s generalizing n with
  | nil =>
    intro c hc
    exact hc
  | cons d s ih =>
    intro c hc
    rw [gather] at hc
    split at hc
    · split at hc
      · exact List.mem_cons_of_mem d (ih _ c hc)
      · exact hc
    · exact hc

/-- If nothing is left, everything was gathered. -/
theorem gathers_of_left (limit n : Nat) (s : List Char) (h : (gather limit n s).2.2 = []) :
    Gathers limit n s (gather limit n s).1 := by
  induction s generalizing n with
  | nil => exact gathers_nil.mpr rfl
  | cons c s ih =>
    rw [gather] at h ⊢
    split at h
    case h_2 => cases h
    case h_1 d hd =>
      split at h
      case isFalse => cases h
      case isTrue hroom =>
        simp only [hroom, if_true]
        exact gathers_cons.mpr ⟨d, hd, hroom, ih _ h⟩

theorem IsExponent.noDigit {s rest : List Char} (h : IsExponent s) (hrest : Ended rest) :
    NoDigit (s ++ rest) := by
  cases h with
  | none => exact hrest.noDigit
  | some hletter _ _ =>
    rcases hletter with rfl | rfl <;> exact noDigit_cons rfl _

theorem IsFraction.noDigit {s rest : List Char} (h : IsFraction s) (hrest : NoDigit rest) :
    NoDigit (s ++ rest) := by
  cases h with
  | none => exact hrest
  | some _ => exact noDigit_cons rfl _

namespace Reader

variable (negative : Bool) (significand : Nat)

/-- An exponent with too many digits makes zero of the number or is refused. -/
theorem exponentDigits_steady (start : Int) (below : Bool) {digits : List Char}
    (h : Digits digits) :
    ∃ o, Reads (exponentDigits negative significand start below) digits o := by
  cases hleft : (gather exponentLimit 0 digits).2.2 with
  | nil => exact ⟨_, exponentDigits_reads negative significand start below h.1
      (gathers_of_left exponentLimit 0 digits hleft)⟩
  | cons d more =>
    have hdigits : ∀ x ∈ d :: more, isDigit x = true := fun x hx =>
      h.2 x (gather_left_mem exponentLimit 0 digits x (by rw [hleft]; exact hx))
    obtain ⟨c, tail, hcons, hc⟩ := h.head
    have hgather {rest : List Char} (hrest : Ended rest) :
        (gather exponentLimit 0 (c :: (tail ++ rest))).2.2 = d :: (more ++ rest) := by
      rw [← List.cons_append, ← hcons, gather_append _ _ _ hrest.noDigit, hleft]
      rfl
    by_cases hrange : (significand ≠ 0 && !below) = true
    · refine ⟨none, fun rest hrest => ?_⟩
      rw [hcons, List.cons_append, exponentDigits, if_pos hc]
      simp only [hgather hrest, hdigits d List.mem_cons_self, hrange, if_true]
      exact yields_none.mpr ⟨_, _, rfl⟩
    · refine ⟨some (.real (if negative then -0.0 else 0.0)), fun rest hrest => ?_⟩
      have hdrop := dropWhile_digits (fun x hx => hdigits x (List.mem_cons_of_mem d hx))
        hrest.noDigit
      rw [hcons, List.cons_append, exponentDigits, if_pos hc]
      simp only [hgather hrest, hdigits d List.mem_cons_self, hrange, if_true]
      rw [hdrop]
      exact ⟨rfl, rfl⟩

theorem exponentPart_steady (start : Int) {sign digits : List Char}
    (hsign : sign = [] ∨ sign = ['+'] ∨ sign = ['-']) (h : Digits digits) :
    ∃ o, Reads (exponentPart negative significand start) (sign ++ digits) o := by
  rcases hsign with rfl | rfl | rfl
  · obtain ⟨o, ho⟩ := exponentDigits_steady negative significand start false h
    obtain ⟨c, tail, rfl, hc⟩ := h.head
    refine ⟨o, fun rest hrest => ?_⟩
    have hread := ho rest hrest
    rw [List.nil_append, List.cons_append] at *
    unfold exponentPart
    split
    case h_1 heq => cases heq; cases hc
    case h_2 heq => cases heq; cases hc
    case h_3 => exact hread
  · exact exponentDigits_steady negative significand start false h
  · exact exponentDigits_steady negative significand start true h

theorem exponentIfAny_steady (start : Int) {s : List Char} (h : IsExponent s) :
    ∃ o, Reads (exponentIfAny negative significand start) s o := by
  cases h with
  | none => exact ⟨_, exponentIfAny_reads negative significand start .none⟩
  | some hletter hsign hdigits =>
    have hpart := exponentPart_steady negative significand start hsign hdigits
    rcases hletter with rfl | rfl <;> exact hpart

theorem fraction_steady (start : Int) {digits exponent : List Char} (h : Digits digits)
    (hexponent : IsExponent exponent) :
    ∃ o, Reads (fraction negative significand start) (digits ++ exponent) o := by
  obtain ⟨result, taken, left, hgather⟩ : ∃ result taken left,
      gather significandLimit significand digits = (result, taken, left) := ⟨_, _, _, rfl⟩
  obtain ⟨o, ho⟩ := exponentIfAny_steady negative result (start - taken) hexponent
  obtain ⟨c, tail, hcons, hc⟩ := h.head
  refine ⟨o, fun rest hrest => ?_⟩
  have hno := hexponent.noDigit hrest
  have hleft : ∀ d ∈ left, isDigit d = true := fun d hd =>
    h.2 d (gather_left_mem significandLimit significand digits d (by rw [hgather]; exact hd))
  have hall := gather_append significandLimit significand digits hno
  rw [hgather, hcons, List.cons_append] at hall
  rw [List.append_assoc, hcons, List.cons_append, fraction, if_pos hc, hall]
  dsimp only
  rw [dropWhile_digits hleft hno]
  exact ho rest hrest

/-- Digits that there is no room for are counted and dropped. -/
theorem afterInteger_dropped {c : Char} {s after : List Char} {n : Nat} (hc : isDigit c = true)
    (h : dropDigits (c :: s) = (n, after)) :
    (∀ places, after = '.' :: places →
      afterInteger negative significand (c :: s) = fraction negative significand n places) ∧
    (after.head? ≠ some '.' →
      afterInteger negative significand (c :: s) = exponentIfAny negative significand n after) := by
  unfold afterInteger
  split
  case h_1 heq => cases heq; cases hc
  case h_2 heq => cases heq; cases hc
  case h_3 heq => cases heq; cases hc
  case h_5 heq => cases heq
  case h_4 heq =>
    cases heq
    simp only [hc, if_true, h]
    constructor
    · intro places hplaces
      subst hplaces
      rfl
    · intro hpoint
      split
      case h_1 heq => exact absurd rfl hpoint
      case h_2 => rfl

/-- What follows the integer digits that there is room for: the others, a fraction and an exponent.
-/
theorem afterInteger_steady {left fraction exponent : List Char}
    (hleft : ∀ c ∈ left, isDigit c = true) (hfraction : IsFraction fraction)
    (hexponent : IsExponent exponent) :
    ∃ o, Reads (afterInteger negative significand) (left ++ (fraction ++ exponent)) o := by
  cases left with
  | nil =>
    cases hfraction with
    | some hdigits => exact fraction_steady negative significand 0 hdigits hexponent
    | none =>
      cases hexponent with
      | none =>
        exact ⟨_, fun rest hrest =>
          yields_some.mpr (afterInteger_ended negative significand hrest)⟩
      | some hletter hsign hdigits =>
        have hpart := exponentPart_steady negative significand 0 hsign hdigits
        rcases hletter with rfl | rfl <;> exact hpart
  | cons c more =>
    have hc := hleft c List.mem_cons_self
    have hdrop {rest : List Char} (hrest : Ended rest) :
        dropDigits (c :: (more ++ (fraction ++ (exponent ++ rest)))) =
          ((c :: more).length, fraction ++ (exponent ++ rest)) :=
      dropDigits_append hleft (hfraction.noDigit (hexponent.noDigit hrest))
    cases hfraction with
    | some hdigits =>
      obtain ⟨o, ho⟩ := fraction_steady negative significand (c :: more).length hdigits hexponent
      refine ⟨o, fun rest hrest => ?_⟩
      have hread := ho rest hrest
      rw [List.append_assoc] at hread
      rw [List.append_assoc, List.append_assoc, List.cons_append,
        (afterInteger_dropped negative significand hc (hdrop hrest)).1 _ rfl]
      exact hread
    | none =>
      obtain ⟨o, ho⟩ := exponentIfAny_steady negative significand (c :: more).length hexponent
      refine ⟨o, fun rest hrest => ?_⟩
      have hpoint : (exponent ++ rest).head? ≠ some '.' := by
        cases hexponent with
        | none =>
          intro heq
          exact absurd (hrest '.' heq) (by decide)
        | some hletter _ _ => rcases hletter with rfl | rfl <;> exact fun heq => by cases heq
      rw [List.append_assoc, List.append_assoc, List.cons_append,
        (afterInteger_dropped negative significand hc (hdrop hrest)).2 hpoint]
      exact ho rest hrest

theorem unsigned_steady {whole fraction exponent : List Char} (hwhole : IsWhole whole)
    (hfraction : IsFraction fraction) (hexponent : IsExponent exponent) :
    ∃ o, Reads (unsigned negative) (whole ++ (fraction ++ exponent)) o := by
  obtain ⟨hdigits, rfl | hzero⟩ := hwhole
  · obtain ⟨o, ho⟩ := afterInteger_steady negative 0
      (show ∀ c ∈ [], isDigit c = true from fun c hc => by cases hc) hfraction hexponent
    refine ⟨o, fun rest hrest => ?_⟩
    have hno := hfraction.noDigit (hexponent.noDigit hrest)
    have hread := ho rest hrest
    rw [List.nil_append, List.append_assoc] at hread
    rw [List.append_assoc, List.append_assoc, List.singleton_append, unsigned_zero negative hno]
    exact hread
  · obtain ⟨significand, taken, left, hgather⟩ : ∃ significand taken left,
        gather significandLimit 0 whole = (significand, taken, left) := ⟨_, _, _, rfl⟩
    have hleft : ∀ d ∈ left, isDigit d = true := fun d hd =>
      hdigits.2 d (gather_left_mem significandLimit 0 whole d (by rw [hgather]; exact hd))
    obtain ⟨o, ho⟩ := afterInteger_steady negative significand hleft hfraction hexponent
    obtain ⟨c, tail, hcons, hc⟩ := hdigits.head
    refine ⟨o, fun rest hrest => ?_⟩
    have hall := gather_append significandLimit 0 whole
      (hfraction.noDigit (hexponent.noDigit hrest))
    have hread := ho rest hrest
    rw [hcons] at hzero
    rw [hgather, hcons, List.cons_append] at hall
    rw [List.append_assoc, List.append_assoc] at hread
    rw [List.append_assoc, List.append_assoc, hcons, List.cons_append,
      unsigned_digit negative hc (fun heq => hzero (by rw [heq]; rfl)), hall]
    exact hread

end Reader

/-- A number starts with a sign or a digit. -/
theorem IsNumber.head {s : List Char} (h : IsNumber s) :
    ∃ c tail, s = c :: tail ∧ (c = '-' || isDigit c) = true := by
  obtain ⟨negative, hwhole, _, _⟩ := h
  cases negative with
  | true => exact ⟨'-', _, rfl, rfl⟩
  | false =>
    obtain ⟨c, tail, rfl, hc⟩ := hwhole.1.head
    exact ⟨c, _, rfl, by simp [hc]⟩

theorem numeral_steady {s : List Char} (h : IsNumber s) :
    Reads Reader.numeral s (Reader.numeral.alone s) := by
  obtain ⟨negative, hwhole, hfraction, hexponent⟩ := h
  obtain ⟨o, ho⟩ := Reader.unsigned_steady negative hwhole hfraction hexponent
  obtain ⟨c, tail, hcons, hc⟩ := hwhole.1.head
  have hread := numeral_reads ⟨c, _, by rw [hcons]; rfl, hc⟩ ho
  have hsign : ∀ t : List Char,
      (if negative then ['-'] else []) ++ t = if negative then '-' :: t else t := by
    intro t
    cases negative <;> rfl
  rw [hsign, hread.alone]
  exact hread

/-! ## Strings wherever they stand -/

theorem length_le_bytesOf (s : List Char) : s.length ≤ (bytesOf s).length := by
  induction s with
  | nil => exact Nat.le_refl 0
  | cons c s ih =>
    have hc : 1 ≤ (String.utf8EncodeChar c).length := by
      rw [String.length_utf8EncodeChar]
      exact Char.utf8Size_pos c
    rw [bytesOf, List.flatMap_cons, List.length_append, List.length_cons]
    rw [bytesOf] at ih
    omega

namespace Reader

variable {digits : List Char} {n : Nat}

theorem hexEscape_unit (h : IsUnit digits n) (s : List Char) :
    hexEscape (digits ++ s) = .ok n s := by
  have htake : (digits ++ s).take 4 = digits := List.take_left' h.1
  have hdrop : (digits ++ s).drop 4 = s := List.drop_left' h.1
  have hbytes := length_le_bytesOf digits
  rw [hexEscape, htake, hdrop, h.2, if_neg (by rw [h.1] at hbytes; omega)]

theorem escape_letter {c d : Char} (h : (c, d) ∈ escapes) (s : List Char) :
    escape (c :: s) = .ok d s := by
  simp only [escapes, List.mem_cons, Prod.mk.injEq, List.not_mem_nil, or_false] at h
  rcases h with ⟨rfl, rfl⟩ | ⟨rfl, rfl⟩ | ⟨rfl, rfl⟩ | ⟨rfl, rfl⟩ | ⟨rfl, rfl⟩ | ⟨rfl, rfl⟩ |
    ⟨rfl, rfl⟩ | ⟨rfl, rfl⟩ <;> rfl

theorem ne_of_mem_escapes {c d : Char} (h : (c, d) ∈ escapes) : c ≠ 'u' := by
  simp only [escapes, List.mem_cons, Prod.mk.injEq, List.not_mem_nil, or_false] at h
  rcases h with ⟨rfl, _⟩ | ⟨rfl, _⟩ | ⟨rfl, _⟩ | ⟨rfl, _⟩ | ⟨rfl, _⟩ | ⟨rfl, _⟩ | ⟨rfl, _⟩ |
    ⟨rfl, _⟩ <;> decide

theorem numberedEscape_unit (h : IsUnit digits n) (hn : n < 0xd800 ∨ 0xdfff < n) (s : List Char) :
    numberedEscape (digits ++ s) = .ok (Char.ofNat n) s := by
  rw [numberedEscape, bind_ok (hexEscape_unit h s), if_neg (by omega), if_pos (by omega)]
  rfl

theorem numberedEscape_low (h : IsUnit digits n) (hn : 0xdc00 ≤ n ∧ n ≤ 0xdfff) (s : List Char) :
    Yields none [] (numberedEscape (digits ++ s)) := by
  rw [numberedEscape, bind_ok (hexEscape_unit h s), if_pos hn]
  exact yields_none.mpr ⟨_, _, rfl⟩

/-- After the first half of a pair comes the second. -/
theorem numberedEscape_high (h : IsUnit digits n) (hn : 0xd800 ≤ n ∧ n ≤ 0xdbff) {low : List Char}
    {m : Nat} (hm : IsUnit low m) (s : List Char) :
    numberedEscape (digits ++ '\\' :: 'u' :: (low ++ s)) =
      if 0xdc00 ≤ m ∧ m ≤ 0xdfff then
        .ok (Char.ofNat (0x10000 + (n - 0xd800) * 0x400 + (m - 0xdc00))) s
      else failHere .loneSurrogate s := by
  have hback : pairMark '\\' ('\\' :: 'u' :: (low ++ s)) = .ok () ('u' :: (low ++ s)) := rfl
  have hmark : pairMark 'u' ('u' :: (low ++ s)) = .ok () (low ++ s) := rfl
  rw [numberedEscape, bind_ok (hexEscape_unit h _), if_neg (by omega), if_neg (by omega),
    bind_ok hback, bind_ok hmark, bind_ok (hexEscape_unit hm s)]
  split <;> rfl

theorem escape_pair (h : IsUnit digits n) (hn : 0xd800 ≤ n ∧ n ≤ 0xdbff) {low : List Char} {m : Nat}
    (hm : IsUnit low m) (hlow : 0xdc00 ≤ m ∧ m ≤ 0xdfff) (s : List Char) :
    escape ('u' :: (digits ++ '\\' :: 'u' :: low) ++ s) =
      .ok (Char.ofNat (0x10000 + (n - 0xd800) * 0x400 + (m - 0xdc00))) s := by
  have hread := numberedEscape_high h hn hm s
  rw [if_pos hlow] at hread
  simp only [List.cons_append, List.append_assoc]
  exact hread

/-- Nothing else may come after the first half of a pair. -/
theorem numberedEscape_lone (h : IsUnit digits n) (hn : 0xd800 ≤ n ∧ n ≤ 0xdbff) {s : List Char}
    (hs : ∀ t, s ≠ '\\' :: 'u' :: t) : Yields none [] (numberedEscape (digits ++ s)) := by
  rw [numberedEscape, bind_ok (hexEscape_unit h s), if_neg (by omega), if_neg (by omega)]
  have hfails {c : Char} {t : List Char} (k : Unit → Reader Char) (ht : t.head? ≠ some c) :
      Yields none [] ((pairMark c >>= k) t) := by
    suffices hmark : Yields none [] (pairMark c t) from hmark.bind_none k
    cases t with
    | nil => exact yields_none.mpr ⟨_, _, rfl⟩
    | cons d t =>
      have hne : ¬ c = d := fun heq => ht (by rw [heq]; rfl)
      rw [pairMark, if_neg hne]
      exact yields_none.mpr ⟨_, _, rfl⟩
  by_cases hback : s.head? = some '\\'
  · obtain ⟨t, rfl⟩ : ∃ t, s = '\\' :: t := by
      cases s with
      | nil => cases hback
      | cons c t => exact ⟨t, by cases hback; rfl⟩
    have hmark : pairMark '\\' ('\\' :: t) = .ok () t := rfl
    rw [bind_ok hmark]
    refine hfails _ fun hu => ?_
    cases t with
    | nil => cases hu
    | cons d t =>
      cases hu
      exact hs t rfl
  · exact hfails _ hback

/-- What is read between quotes, whatever follows. -/
def ReadsQuoted (s : List Char) (o : Option (List Char)) : Prop :=
  ∀ fuel rest, s.length < fuel → Yields o rest (stringRest fuel (s ++ '"' :: rest))

theorem readsQuoted_nil : ReadsQuoted [] (some []) := by
  intro fuel rest hfuel
  obtain ⟨fuel, rfl⟩ : ∃ k, fuel = k + 1 := ⟨fuel - 1, by omega⟩
  exact ⟨rfl, rfl⟩

/-- A piece that is read as one character in one step. -/
theorem ReadsQuoted.step {piece tail : List Char} {o : Option (List Char)} (h : ReadsQuoted tail o)
    {c : Char} (hpiece : piece ≠ []) (hread : ∀ fuel s, stringRest (fuel + 1) (piece ++ s) =
      (do let cs ← stringRest fuel
          return c :: cs : Reader (List Char)) s) :
    ReadsQuoted (piece ++ tail) (o.map (c :: ·)) := by
  intro fuel rest hfuel
  have hpos : 0 < piece.length := List.length_pos_iff.mpr hpiece
  obtain ⟨fuel, rfl⟩ : ∃ k, fuel = k + 1 := ⟨fuel - 1, by omega⟩
  rw [List.length_append] at hfuel
  rw [List.append_assoc, hread]
  exact (h fuel rest (by omega)).map _

theorem ReadsQuoted.plain {c : Char} {tail : List Char} {o : Option (List Char)}
    (h : ReadsQuoted tail o) (hc : IsPlain c) : ReadsQuoted (c :: tail) (o.map (c :: ·)) :=
  h.step (List.cons_ne_nil c []) fun fuel s => stringRest_plain fuel hc.2.1 hc.2.2 hc.1 s

theorem ReadsQuoted.escape {e tail : List Char} {o : Option (List Char)} (h : ReadsQuoted tail o)
    {c : Char} (he : ∀ s, Reader.escape (e ++ s) = .ok c s) :
    ReadsQuoted ('\\' :: (e ++ tail)) (o.map (c :: ·)) :=
  h.step (List.cons_ne_nil '\\' e) fun fuel s => stringRest_escape fuel (he s)

theorem ReadsQuoted.pair {high low tail : List Char} {o : Option (List Char)} {n m : Nat}
    (h : ReadsQuoted tail o) (hn : IsUnit high n) (hm : IsUnit low m)
    (hhigh : 0xd800 ≤ n ∧ n ≤ 0xdbff) (hlow : 0xdc00 ≤ m ∧ m ≤ 0xdfff) :
    ReadsQuoted ('\\' :: 'u' :: (high ++ '\\' :: 'u' :: (low ++ tail)))
      (o.map (Char.ofNat (0x10000 + (n - 0xd800) * 0x400 + (m - 0xdc00)) :: ·)) := by
  have hpair := h.escape (escape_pair hn hhigh hm hlow)
  simpa using hpair

theorem readsQuoted_refused {s : List Char}
    (h : ∀ rest, Yields none [] (escape (s ++ '"' :: rest))) : ReadsQuoted ('\\' :: s) none := by
  intro fuel rest hfuel
  obtain ⟨fuel, rfl⟩ : ∃ k, fuel = k + 1 := ⟨fuel - 1, by omega⟩
  exact (h rest).bind_none _

/-- The first half of a pair is read together with the second, or refused. -/
theorem readsQuoted_high {digits tail : List Char} {n : Nat} (hn : IsUnit digits n)
    (hhigh : 0xd800 ≤ n ∧ n ≤ 0xdbff) (htail : IsQuoted tail)
    (h : ∀ t, t.length < tail.length → IsQuoted t → ∃ o, ReadsQuoted t o) :
    ∃ o, ReadsQuoted ('\\' :: 'u' :: (digits ++ tail)) o := by
  have hlone (hs : ∀ rest t, tail ++ '"' :: rest ≠ '\\' :: 'u' :: t) :
      ReadsQuoted ('\\' :: 'u' :: (digits ++ tail)) none := by
    refine readsQuoted_refused fun rest => ?_
    rw [List.cons_append, List.append_assoc]
    exact numberedEscape_lone hn hhigh (hs rest)
  cases htail with
  | nil => exact ⟨none, hlone fun rest t heq => by cases heq⟩
  | plain hc _ => exact ⟨none, hlone fun rest t heq => hc.2.2 (List.cons.inj heq).1⟩
  | letter hc _ =>
    exact ⟨none, hlone fun rest t heq =>
      ne_of_mem_escapes hc (List.cons.inj (List.cons.inj heq).2).1⟩
  | @unit low tail m hm htail =>
    by_cases hlow : 0xdc00 ≤ m ∧ m ≤ 0xdfff
    · have hshort : tail.length < ('\\' :: 'u' :: (low ++ tail)).length := by
        simp only [List.length_cons, List.length_append]
        omega
      obtain ⟨o, ho⟩ := h tail hshort htail
      exact ⟨_, ho.pair hn hm hhigh hlow⟩
    · refine ⟨none, readsQuoted_refused fun rest => ?_⟩
      have hread := numberedEscape_high hn hhigh hm (tail ++ '"' :: rest)
      rw [if_neg hlow] at hread
      simp only [List.cons_append, List.append_assoc]
      show Yields none [] (numberedEscape (digits ++ '\\' :: 'u' :: (low ++ (tail ++ '"' :: rest))))
      rw [hread]
      exact yields_none.mpr ⟨_, _, rfl⟩

/-- What may stand between quotes is read the same whatever follows, or refused. The induction is
on the length, because a pair of escapes is read in one step. -/
theorem readsQuoted_steady {s : List Char} (h : IsQuoted s) : ∃ o, ReadsQuoted s o := by
  induction hlen : s.length using Nat.strongRecOn generalizing s with
  | ind length ih =>
    have hshorter {t : List Char} (ht : t.length < s.length) (hq : IsQuoted t) :
        ∃ o, ReadsQuoted t o := ih t.length (by omega) hq rfl
    cases h with
    | nil => exact ⟨_, readsQuoted_nil⟩
    | plain hc htail =>
      obtain ⟨o, ho⟩ := hshorter (Nat.lt_succ_self _) htail
      exact ⟨_, ho.plain hc⟩
    | letter hc htail =>
      obtain ⟨o, ho⟩ := hshorter (by simp only [List.length_cons]; omega) htail
      exact ⟨_, ho.escape (e := [_]) fun s => escape_letter hc s⟩
    | @unit digits tail n hn htail =>
      have hshort {t : List Char} (ht : t.length ≤ tail.length) (hq : IsQuoted t) :
          ∃ o, ReadsQuoted t o :=
        hshorter (by simp only [List.length_cons, List.length_append]; omega) hq
      by_cases hplain : n < 0xd800 ∨ 0xdfff < n
      · obtain ⟨o, ho⟩ := hshort (Nat.le_refl _) htail
        exact ⟨_, ho.escape (e := 'u' :: digits) fun s => numberedEscape_unit hn hplain s⟩
      · by_cases hlow : 0xdc00 ≤ n
        · refine ⟨none, readsQuoted_refused fun rest => ?_⟩
          rw [List.cons_append, List.append_assoc]
          exact numberedEscape_low hn (by omega) _
        · exact readsQuoted_high hn (by omega) htail fun t ht hq => hshort (Nat.le_of_lt ht) hq

theorem readsQuoted_spelled {s k : List Char} (h : Spelled s k) : ReadsQuoted s (some k) := by
  induction h with
  | nil => exact readsQuoted_nil
  | plain hc _ ih => exact ih.plain hc
  | letter hc _ ih => exact ih.escape (e := [_]) fun s => escape_letter hc s
  | @unit digits _ _ n hn hplain _ ih =>
    exact ih.escape (e := 'u' :: digits) fun s => numberedEscape_unit hn hplain s
  | pair hn hm hhigh hlow _ ih => exact ih.pair hn hm hhigh hlow

/-- Up to its closing quote, a string is read as what stands between the quotes. -/
theorem ReadsQuoted.string {s : List Char} {o : Option (List Char)} (h : ReadsQuoted s o)
    (rest : List Char) : Yields (o.map String.ofList) rest (Reader.string (s ++ '"' :: rest)) := by
  have hread := h ((s ++ '"' :: rest).length + 1) rest (by rw [List.length_append]; omega)
  exact hread.map String.ofList

end Reader

end Widgetry.Json
