import Widgetry.Proofs.Documents
import Widgetry.Proofs.Grammar

/-!
# Passing over values

A well-formed value that nothing depends on is passed over up to its end, however deep it is
(`passValue_value`). The brackets that are open are kept on a stack, so what is shown of a value is
that the machine goes from before it to after it with the same stack.
-/

namespace Widgetry.Json

/-- What a value starts with: neither space nor the end of a list. -/
theorem value_head {v : List Char} (h : IsValue v) :
    ∃ c tail, v = c :: tail ∧ Reader.isSpace c = false ∧ c ≠ ']' := by
  cases h with
  | null => exact ⟨'n', _, rfl, rfl, by decide⟩
  | true => exact ⟨'t', _, rfl, rfl, by decide⟩
  | false => exact ⟨'f', _, rfl, rfl, by decide⟩
  | string _ => exact ⟨'"', _, rfl, rfl, by decide⟩
  | list _ => exact ⟨'[', _, rfl, rfl, by decide⟩
  | object _ _ => exact ⟨'\x7b', _, rfl, rfl, by decide⟩
  | number hn =>
    obtain ⟨c, tail, rfl, hc⟩ := hn.head
    refine ⟨c, tail, rfl, isSpace_numeral hc, ?_⟩
    intro heq
    rw [heq] at hc
    cases hc

/-- After a part of a list or an object comes what ends a value. -/
theorem listed_ended (parts : List (List Char)) {gap : List Char} (hgap : Blank gap) {c : Char}
    (hc : endsValue c = true) (rest : List Char) :
    Ended (listed false parts ++ (gap ++ c :: rest)) := by
  cases parts with
  | nil => exact ended_blank hgap hc rest
  | cons part parts => exact ended_cons rfl _

theorem ended_append {pre : List Char} (hpre : Blank pre) {s : List Char} (hs : Ended s) :
    Ended (pre ++ s) := by
  cases pre with
  | nil => exact hs
  | cons b pre =>
    have hb : endsValue b = true := by simp [endsValue, hpre b List.mem_cons_self]
    exact ended_cons hb _

namespace Reader

/-! ## Strings and numbers -/

theorem passEscape_letter {c d : Char} (h : (c, d) ∈ escapes) (s : List Char) :
    passEscape (c :: s) = .ok () s := by
  simp only [escapes, List.mem_cons, Prod.mk.injEq, List.not_mem_nil, or_false] at h
  rcases h with ⟨rfl, rfl⟩ | ⟨rfl, rfl⟩ | ⟨rfl, rfl⟩ | ⟨rfl, rfl⟩ | ⟨rfl, rfl⟩ | ⟨rfl, rfl⟩ |
    ⟨rfl, rfl⟩ | ⟨rfl, rfl⟩ <;> rfl

theorem passEscape_unit {digits : List Char} {n : Nat} (h : IsUnit digits n) (s : List Char) :
    passEscape ('u' :: (digits ++ s)) = .ok () s :=
  bind_ok (hexEscape_unit h s)

theorem passStringRest_quoted {s : List Char} (h : IsQuoted s) {fuel : Nat}
    (hfuel : s.length < fuel) (rest : List Char) :
    passStringRest fuel (s ++ '"' :: rest) = .ok () rest := by
  induction h generalizing fuel with
  | nil =>
    obtain ⟨fuel, rfl⟩ : ∃ k, fuel = k + 1 := ⟨fuel - 1, by omega⟩
    rfl
  | @plain c s hc _ ih =>
    obtain ⟨fuel, rfl⟩ : ∃ k, fuel = k + 1 := ⟨fuel - 1, by omega⟩
    rw [List.cons_append]
    unfold passStringRest
    split
    case h_1 heq => cases heq
    case h_2 heq => exact absurd (List.cons.inj heq).1 hc.2.1
    case h_3 heq => exact absurd (List.cons.inj heq).1 hc.2.2
    case h_4 heq =>
      cases heq
      rw [if_neg hc.1]
      exact ih (Nat.lt_of_succ_lt_succ hfuel)
  | letter hc _ ih =>
    obtain ⟨fuel, rfl⟩ : ∃ k, fuel = k + 1 := ⟨fuel - 1, by omega⟩
    simp only [List.length_cons] at hfuel
    exact (bind_ok (passEscape_letter hc _)).trans (ih (by omega))
  | unit hn _ ih =>
    obtain ⟨fuel, rfl⟩ : ∃ k, fuel = k + 1 := ⟨fuel - 1, by omega⟩
    simp only [List.length_cons, List.length_append] at hfuel
    simp only [List.cons_append, List.append_assoc]
    exact (bind_ok (passEscape_unit hn _)).trans (ih (by omega))

theorem passString_quoted {s : List Char} (h : IsQuoted s) (rest : List Char) :
    passString (s ++ '"' :: rest) = .ok () rest :=
  passStringRest_quoted h (by rw [List.length_append]; omega) rest

theorem passDigits_digits (missing : Reader Unit) {s rest : List Char} (h : Digits s)
    (hrest : NoDigit rest) : passDigits missing (s ++ rest) = .ok () rest := by
  have hdrop := dropWhile_digits h.2 hrest
  obtain ⟨c, tail, rfl, hc⟩ := h.head
  rw [List.cons_append] at hdrop ⊢
  rw [passDigits, if_pos hc, hdrop]

theorem passExponent_digits {sign digits rest : List Char}
    (hsign : sign = [] ∨ sign = ['+'] ∨ sign = ['-']) (h : Digits digits) (hrest : NoDigit rest) :
    passExponent (sign ++ digits ++ rest) = .ok () rest := by
  have hpass := passDigits_digits (failNext .badNumber) h hrest
  rcases hsign with rfl | rfl | rfl
  · obtain ⟨c, tail, rfl, hc⟩ := h.head
    rw [List.nil_append, List.cons_append] at *
    unfold passExponent
    split
    case h_1 heq => cases heq; cases hc
    case h_2 heq => cases heq; cases hc
    case h_3 => exact hpass
  · exact hpass
  · exact hpass

theorem passTail_exponent {exponent rest : List Char} (h : IsExponent exponent)
    (hrest : Ended rest) : passTail (exponent ++ rest) = .ok () rest := by
  cases h with
  | some hletter hsign hdigits =>
    have hpass := passExponent_digits hsign hdigits hrest.noDigit
    rcases hletter with rfl | rfl <;> exact hpass
  | none =>
    rw [List.nil_append]
    unfold passTail
    split
    case h_1 => exact absurd (hrest '.' rfl) (by decide)
    case h_2 => exact absurd (hrest 'e' rfl) (by decide)
    case h_3 => exact absurd (hrest 'E' rfl) (by decide)
    case h_4 => rfl

theorem passTail_fraction {fraction exponent rest : List Char} (hfraction : IsFraction fraction)
    (hexponent : IsExponent exponent) (hrest : Ended rest) :
    passTail (fraction ++ (exponent ++ rest)) = .ok () rest := by
  cases hfraction with
  | none => exact passTail_exponent hexponent hrest
  | some hdigits =>
    have hpass := passDigits_digits (failNext .badNumber) hdigits (hexponent.noDigit hrest)
    have htail := passTail_exponent hexponent hrest
    refine (bind_ok hpass).trans ?_
    cases hexponent with
    | some hletter _ _ => rcases hletter with rfl | rfl <;> exact htail
    | none =>
      rw [List.nil_append]
      split
      case h_1 => exact absurd (hrest 'e' rfl) (by decide)
      case h_2 => exact absurd (hrest 'E' rfl) (by decide)
      case h_3 => rfl

theorem passUnsigned_whole {whole fraction exponent rest : List Char} (hwhole : IsWhole whole)
    (hfraction : IsFraction fraction) (hexponent : IsExponent exponent) (hrest : Ended rest) :
    passUnsigned (whole ++ (fraction ++ (exponent ++ rest))) = .ok () rest := by
  have hno := hfraction.noDigit (hexponent.noDigit hrest)
  have htail := passTail_fraction hfraction hexponent hrest
  obtain ⟨hdigits, rfl | hzero⟩ := hwhole
  · rw [List.singleton_append]
    revert hno htail
    cases fraction ++ (exponent ++ rest) with
    | nil =>
      intro _ htail
      exact htail
    | cons c tail =>
      intro hno htail
      have hc : Numeral.isDigit c = false := hno c rfl
      simp only [passUnsigned, hc, Bool.false_eq_true, if_false]
      exact htail
  · have hpass := passDigits_digits (failNext .badNumber) hdigits hno
    obtain ⟨c, tail, rfl, hc⟩ := hdigits.head
    rw [List.cons_append] at hpass ⊢
    rw [passUnsigned]
    · exact (bind_ok hpass).trans htail
    · intro t heq
      rw [(List.cons.inj heq).1] at hzero
      exact hzero rfl

theorem passNumeral_number {s rest : List Char} (h : IsNumber s) (hrest : Ended rest) :
    passNumeral (s ++ rest) = .ok () rest := by
  obtain ⟨negative, hwhole, hfraction, hexponent⟩ := h
  have hpass := passUnsigned_whole hwhole hfraction hexponent hrest
  rw [List.append_assoc, List.append_assoc, List.append_assoc]
  cases negative with
  | true => exact hpass
  | false =>
    obtain ⟨c, tail, rfl, hc⟩ := hwhole.1.head
    rw [if_neg Bool.false_ne_true, List.nil_append]
    rw [List.cons_append] at hpass ⊢
    rw [passNumeral]
    · exact hpass
    · intro t heq
      rw [(List.cons.inj heq).1] at hc
      cases hc

/-! ## Values -/

/-- The mark that opens a bracket. -/
def Bracket.opening : Bracket → Char
  | .list => '['
  | .object => '\x7b'

/-- The mark that closes a bracket. -/
def Bracket.closing : Bracket → Char
  | .list => ']'
  | .object => '\x7d'

/-- Blanks before a value and the value itself are passed over in at most two steps for each
character, and the brackets that are open stay so. -/
def Passes (v : List Char) : Prop :=
  ∀ fuel brackets pre rest, Blank pre → Ended rest → 2 * v.length ≤ fuel →
    ∃ left, fuel < left + 2 * v.length ∧
      passFrom fuel .value brackets (pre ++ (v ++ rest)) =
        passFrom left (.inside true) brackets rest

/-- The same for what stands between two commas. It does not start with the closing mark. -/
structure PassesPart (bracket : Bracket) (part : List Char) : Prop where
  head : ∃ c tail, part = c :: tail ∧ isSpace c = false ∧ c ≠ bracket.closing
  passes : ∀ fuel outer pre rest, Blank pre → Ended rest → 2 * part.length ≤ fuel →
    ∃ left, fuel < left + 2 * part.length ∧
      (do passTo bracket; passFrom fuel .value (bracket :: outer)) (pre ++ (part ++ rest)) =
        passFrom left (.inside true) (bracket :: outer) rest

variable {bracket : Bracket} {pre : List Char}

/-- Inside a bracket blanks do not count. -/
theorem passFrom_blank (hpre : Blank pre) (fuel : Nat) (comma : Bool) (outer : List Bracket)
    (s : List Char) : passFrom (fuel + 1) (.inside comma) (bracket :: outer) (pre ++ s) =
      passFrom (fuel + 1) (.inside comma) (bracket :: outer) s :=
  bind_congr_left (peek_append hpre s) _

theorem passFrom_closing (hpre : Blank pre) (fuel : Nat) (comma : Bool) (outer : List Bracket)
    (s : List Char) :
    passFrom (fuel + 1) (.inside comma) (bracket :: outer) (pre ++ bracket.closing :: s) =
      passFrom fuel (.inside true) outer s := by
  cases bracket with
  | list => exact peek_bind hpre rfl s _
  | object => exact peek_bind hpre rfl s _

/-- From inside a bracket to the next part, over the comma unless it is the first part. -/
theorem passFrom_part (hpre : Blank pre) {c : Char} (hc : isSpace c = false)
    (hend : c ≠ bracket.closing) (first : Bool) (fuel : Nat) (outer : List Bracket)
    (s : List Char) : ∃ gap, Blank gap ∧
    passFrom (fuel + 1) (.inside !first) (bracket :: outer)
        ((if first then [] else [',']) ++ (pre ++ c :: s)) =
      (do passTo bracket; passFrom fuel .value (bracket :: outer)) (gap ++ c :: s) := by
  cases first with
  | true =>
    refine ⟨[], blank_nil, (peek_bind hpre hc s _).trans ?_⟩
    cases bracket with
    | list =>
      have hne : c ≠ ']' := hend
      simp [hne]
    | object =>
      have hne : c ≠ '\x7d' := hend
      simp [hne]
  | false =>
    refine ⟨pre, hpre, (peek_cons rfl (pre ++ c :: s) _).trans ?_⟩
    cases bracket <;> rfl

section Parts

variable {ι : Type} {chars body : ι → List Char} {lead : ι → Blanks}

/-- The parts inside a bracket and the closing mark, by induction on the parts. -/
theorem passFrom_parts (hchars : ∀ i, chars i = lead i ++ body i) {items : List ι}
    (h : ∀ i ∈ items, PassesPart bracket (body i)) (first : Bool) (fuel : Nat) (gap : Blanks)
    (outer : List Bracket) (rest : List Char)
    (hfuel : 2 * (listed first (items.map chars)).length < fuel) :
    ∃ left, fuel ≤ left + 2 * (listed first (items.map chars)).length + 1 ∧
      passFrom fuel (.inside !first) (bracket :: outer)
          (listed first (items.map chars) ++ (gap ++ bracket.closing :: rest)) =
        passFrom left (.inside true) outer rest := by
  obtain ⟨fuel, rfl⟩ : ∃ k, fuel = k + 1 := ⟨fuel - 1, by omega⟩
  induction items generalizing first fuel with
  | nil => exact ⟨fuel, by omega, passFrom_closing gap.2 fuel _ outer rest⟩
  | cons i items ih =>
    obtain ⟨hpart, hparts⟩ := List.forall_mem_cons.mp h
    obtain ⟨c, tail, hc, hspace, hend⟩ := hpart.head
    have hclosing : endsValue bracket.closing = true := by cases bracket <;> rfl
    obtain ⟨pre, hpre, hstep⟩ := passFrom_part (lead i).2 hspace hend first fuel outer
      (tail ++ (listed false (items.map chars) ++ (gap ++ bracket.closing :: rest)))
    simp only [← List.cons_append, ← hc] at hstep
    simp only [List.map_cons, listed, hchars i, List.length_append] at hfuel ⊢
    obtain ⟨left, hleft, hpass⟩ := hpart.passes fuel outer pre _ hpre
      (listed_ended (items.map chars) gap.2 hclosing rest) (by omega)
    obtain ⟨left, rfl⟩ : ∃ k, left = k + 1 := ⟨left - 1, by omega⟩
    obtain ⟨last, hlast, hrest⟩ := ih hparts false left (by omega)
    refine ⟨last, by omega, ?_⟩
    simp only [List.append_assoc]
    exact hstep.trans (hpass.trans hrest)

theorem passes_bracketed (bracket : Bracket) (hchars : ∀ i, chars i = lead i ++ body i)
    {items : List ι} (h : ∀ i ∈ items, PassesPart bracket (body i)) (gap : Blanks) :
    Passes (bracket.opening :: (listed true (items.map chars) ++ (gap ++ [bracket.closing]))) := by
  intro fuel brackets pre rest hpre _ hfuel
  simp only [List.length_cons, List.length_append] at hfuel ⊢
  obtain ⟨fuel, rfl⟩ : ∃ k, fuel = k + 1 := ⟨fuel - 1, by omega⟩
  obtain ⟨left, hleft, hpass⟩ := passFrom_parts hchars h true fuel gap brackets rest
    (by omega)
  refine ⟨left, by omega, ?_⟩
  simp only [List.cons_append, List.append_assoc]
  cases bracket with
  | list => exact (peek_bind hpre rfl _ _).trans hpass
  | object => exact (peek_bind hpre rfl _ _).trans hpass

end Parts

/-- Inside a bracket, the blanks after a value are passed over as well. -/
theorem Passes.padded {p : Padded} (h : Passes p.text) (bracket : Bracket) (fuel : Nat)
    (outer : List Bracket) {pre : List Char} (hpre : Blank pre) {rest : List Char}
    (hrest : Ended rest) (hfuel : 2 * p.text.length ≤ fuel) :
    ∃ left, fuel < left + 2 * p.text.length ∧
      passFrom fuel .value (bracket :: outer) (pre ++ (p.text ++ (p.after ++ rest))) =
        passFrom left (.inside true) (bracket :: outer) rest := by
  obtain ⟨left, hleft, hpass⟩ := h fuel (bracket :: outer) pre (p.after ++ rest) hpre
    (ended_append p.after.2 hrest) hfuel
  obtain ⟨left, rfl⟩ : ∃ k, left = k + 1 := ⟨left - 1, by omega⟩
  exact ⟨left + 1, hleft, hpass.trans (passFrom_blank p.after.2 left true outer rest)⟩

theorem passesPart_item {p : Padded} (hv : IsValue p.text) (h : Passes p.text) :
    PassesPart .list (p.text ++ p.after) := by
  constructor
  case head =>
    obtain ⟨c, tail, hc, hspace, hend⟩ := value_head hv
    exact ⟨c, tail ++ p.after, by rw [hc]; rfl, hspace, hend⟩
  case passes =>
    intro fuel outer pre rest hpre hrest hfuel
    rw [List.length_append] at hfuel ⊢
    obtain ⟨left, hleft, hpass⟩ := h.padded .list fuel outer hpre hrest (by omega)
    refine ⟨left, by omega, ?_⟩
    rw [List.append_assoc]
    exact hpass

theorem colon_blank (hpre : Blank pre) (s : List Char) : colon (pre ++ ':' :: s) = .ok () s := by
  rw [colon, peek_bind hpre rfl]
  rfl

theorem passKey_quoted (hpre : Blank pre) {key gap : List Char} (hkey : IsQuoted key)
    (hgap : Blank gap) (s : List Char) :
    passKey (pre ++ '"' :: (key ++ '"' :: (gap ++ ':' :: s))) = .ok () s := by
  rw [passKey, peek_bind hpre rfl]
  show (passString >>= fun _ => colon) (key ++ '"' :: (gap ++ ':' :: s)) = _
  rw [bind_ok (passString_quoted hkey _), colon_blank hgap]

theorem passesPart_member {m : Member} (hkey : IsQuoted m.key.text) (h : Passes m.value.text) :
    PassesPart .object
      ('"' :: (m.key.text ++ '"' :: (m.key.after ++ ':' :: m.value.chars))) := by
  constructor
  case head => exact ⟨'"', _, rfl, rfl, by decide⟩
  case passes =>
    intro fuel outer pre rest hpre hrest hfuel
    simp only [Padded.chars, List.length_cons, List.length_append] at hfuel ⊢
    obtain ⟨left, hleft, hpass⟩ :=
      h.padded .object fuel outer m.value.before.2 hrest (by omega)
    refine ⟨left, by omega, ?_⟩
    simp only [List.cons_append, List.append_assoc]
    exact (bind_ok (passKey_quoted hpre hkey m.key.after.2 _)).trans hpass

/-- A value that opens no bracket is passed over in one step. -/
theorem passes_of_step {v : List Char} (hv : v ≠ []) (h : ∀ fuel brackets pre rest, Blank pre →
    Ended rest → passFrom (fuel + 1) .value brackets (pre ++ (v ++ rest)) =
      passFrom fuel (.inside true) brackets rest) : Passes v := by
  intro fuel brackets pre rest hpre hrest hfuel
  have hpos : 0 < v.length := List.length_pos_iff.mpr hv
  obtain ⟨fuel, rfl⟩ : ∃ k, fuel = k + 1 := ⟨fuel - 1, by omega⟩
  exact ⟨fuel, by omega, h fuel brackets pre rest hpre hrest⟩

theorem passes_number {s : List Char} (h : IsNumber s) : Passes s := by
  obtain ⟨c, tail, hs, hc⟩ := h.head
  refine passes_of_step (by rw [hs]; exact List.cons_ne_nil c tail) ?_
  intro fuel brackets pre rest hpre hrest
  have hpass := passNumeral_number h hrest
  obtain ⟨hnull, htrue, hfalse, hquote, hlist, hobject⟩ := ne_of_numeral hc
  rw [hs, List.cons_append] at hpass ⊢
  rw [passFrom, peek_bind hpre (isSpace_numeral hc)]
  simp only [hc, if_true]
  exact bind_ok hpass

theorem passes_value {v : List Char} (h : IsValue v) : Passes v := by
  induction h with
  | null => exact passes_of_step (List.cons_ne_nil _ _) fun _ _ _ _ hpre _ => peek_bind hpre rfl _ _
  | true => exact passes_of_step (List.cons_ne_nil _ _) fun _ _ _ _ hpre _ => peek_bind hpre rfl _ _
  | false =>
    exact passes_of_step (List.cons_ne_nil _ _) fun _ _ _ _ hpre _ => peek_bind hpre rfl _ _
  | number hn => exact passes_number hn
  | string hs =>
    refine passes_of_step (List.cons_ne_nil _ _) fun fuel brackets pre rest hpre _ => ?_
    rw [List.cons_append, List.append_assoc]
    exact (peek_bind hpre rfl _ _).trans (bind_ok (passString_quoted hs rest))
  | @list items gap hv ih =>
    exact passes_bracketed .list (fun p : Padded => (rfl : p.chars = p.before ++ _))
      (fun p hp => passesPart_item (hv p hp) (ih p hp)) gap
  | @object members gap hkeys _ ih =>
    exact passes_bracketed .object (fun m : Member => (rfl : m.chars = m.key.before ++ _))
      (fun m hm => passesPart_member (hkeys m hm) (ih m hm)) gap

theorem passValue_value {v : List Char} (h : IsValue v) (hpre : Blank pre) {rest : List Char}
    (hrest : Ended rest) : passValue (pre ++ (v ++ rest)) = .ok () rest := by
  obtain ⟨left, hleft, hpass⟩ := passes_value h (2 * ((pre ++ (v ++ rest)).length + 1)) [] pre rest
    hpre hrest (by simp only [List.length_append]; omega)
  simp only [List.length_append] at hleft
  obtain ⟨left, rfl⟩ : ∃ k, left = k + 1 := ⟨left - 1, by omega⟩
  exact hpass

end Reader

end Widgetry.Json
