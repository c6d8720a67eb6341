import Mathlib.Algebra.Order.Ring.Nat
import Widgetry.Proofs.Reading

/-!
# Written numbers

A written number has digits, possibly a fraction and possibly an exponent. Whatever text follows
it, the reader takes all of it. The digits of a decimal are gathered into its significand and the
places after the point taken off its exponent, so a decimal is read as the number that was
written (`decimal_reads`), up to the rounding of `real?`.
-/

namespace Widgetry.Json

open Numeral

/-- The next character, if there is one, does not go on with digits. -/
def NoDigit (s : List Char) : Prop := ∀ c, s.head? = some c → isDigit c = false

theorem endsValue_cases {c : Char} (h : endsValue c = true) :
    c = ' ' ∨ c = '\n' ∨ c = '\t' ∨ c = '\r' ∨ c = ',' ∨ c = ']' ∨ c = '\x7d' := by
  simpa [endsValue, Reader.isSpace, or_assoc] using h

theorem Ended.noDigit {s : List Char} (h : Ended s) : NoDigit s := by
  intro c hc
  rcases endsValue_cases (h c hc) with rfl | rfl | rfl | rfl | rfl | rfl | rfl <;> rfl

theorem noDigit_cons {c : Char} (h : isDigit c = false) (s : List Char) : NoDigit (c :: s) := by
  intro d hd
  cases hd
  exact h

theorem digit?_eq_none {c : Char} (h : isDigit c = false) : digit? c = none := by
  simpa [isDigit] using h

/-! ## Gathering digits -/

theorem gather_noDigit (limit n : Nat) {s : List Char} (h : NoDigit s) :
    gather limit n s = (n, 0, s) := by
  cases s with
  | nil => rfl
  | cons c rest => rw [gather, digit?_eq_none (h c rfl)]

/-- Digits are gathered from the left, so what follows them is left alone. -/
theorem gather_append (limit n : Nat) (s : List Char) {rest : List Char} (h : NoDigit rest) :
    gather limit n (s ++ rest) =
      ((gather limit n s).1, (gather limit n s).2.1, (gather limit n s).2.2 ++ rest) := by
  induction s generalizing n with
  | nil => exact gather_noDigit limit n h
  | cons c s ih =>
    rw [List.cons_append, gather, gather]
    split
    · split
      · rw [ih]
      · rfl
    · rfl

/-- All of the digits go into the significand. -/
def Gathers (limit n : Nat) (s : List Char) (m : Nat) : Prop :=
  gather limit n s = (m, s.length, [])

section Gathers

variable {limit n m p : Nat} {s t rest : List Char}

theorem gathers_nil : Gathers limit n [] m ↔ n = m := by
  simp [Gathers, gather]

theorem gathers_cons {c : Char} : Gathers limit n (c :: s) m ↔
    ∃ d, digit? c = some d ∧ 10 * n + d < limit ∧ Gathers limit (10 * n + d) s m := by
  rw [Gathers, gather]
  cases hd : digit? c with
  | none => simp
  | some d =>
    by_cases hroom : 10 * n + d < limit
    · simp only [hroom, if_true, true_and, Option.some.injEq, exists_eq_left']
      rw [Gathers]
      rcases gather limit (10 * n + d) s with ⟨v, taken, left⟩
      simp
    · simp [hroom]

/-- Digits are gathered from the left. -/
theorem gathers_append : Gathers limit n (s ++ t) p ↔
    ∃ m, Gathers limit n s m ∧ Gathers limit m t p := by
  induction s generalizing n with
  | nil => simp [gathers_nil]
  | cons c s ih =>
    rw [List.cons_append, gathers_cons]
    constructor
    · rintro ⟨d, hd, hroom, h⟩
      obtain ⟨m, hs, ht⟩ := ih.mp h
      exact ⟨m, gathers_cons.mpr ⟨d, hd, hroom, hs⟩, ht⟩
    · rintro ⟨m, hs, ht⟩
      obtain ⟨d, hd, hroom, hs⟩ := gathers_cons.mp hs
      exact ⟨d, hd, hroom, ih.mpr ⟨m, hs, ht⟩⟩

theorem Gathers.followed (h : Gathers limit n s m) (hrest : NoDigit rest) :
    gather limit n (s ++ rest) = (m, s.length, rest) := by
  rw [gather_append limit n s hrest, h, List.nil_append]

theorem Gathers.head (h : Gathers limit n s m) (hne : s ≠ []) :
    ∃ c tail, s = c :: tail ∧ isDigit c = true := by
  obtain ⟨c, tail, rfl⟩ := List.exists_cons_of_ne_nil hne
  obtain ⟨d, hd, _⟩ := gathers_cons.mp h
  exact ⟨c, tail, rfl, by rw [isDigit, hd]; rfl⟩

theorem gathers_zeros (j : Nat) (h : n * 10 ^ j < limit) :
    Gathers limit n (List.replicate j '0') (n * 10 ^ j) := by
  induction j generalizing n with
  | zero => simp [gathers_nil]
  | succ j ih =>
    have hnext : 10 * n * 10 ^ j = n * 10 ^ (j + 1) := by rw [Nat.pow_succ]; ac_rfl
    have hroom : 10 * n ≤ 10 * n * 10 ^ j := Nat.le_mul_of_pos_right _ (Nat.pow_pos (by decide))
    rw [List.replicate_succ, gathers_cons]
    refine ⟨0, rfl, by omega, ?_⟩
    rw [← hnext, Nat.add_zero]
    exact ih (by omega)

end Gathers

/-! ## Decimal digits -/

theorem digit?_digitChar : ∀ d < 10, digit? (Nat.digitChar d) = some d := by decide

theorem gathers_toDigits {limit n : Nat} (h : n < limit) :
    Gathers limit 0 (Nat.toDigits 10 n) n := by
  induction n using Nat.strongRecOn with
  | ind n ih =>
    by_cases hlt : n < 10
    · rw [Nat.toDigits_of_lt_base hlt, gathers_cons]
      exact ⟨n, digit?_digitChar n hlt, by omega, gathers_nil.mpr (by omega)⟩
    · rw [Nat.toDigits_of_base_le (by decide) (by omega : 10 ≤ n), gathers_append]
      refine ⟨n / 10, ih (n / 10) (by omega) (by omega), gathers_cons.mpr ?_⟩
      exact ⟨n % 10, digit?_digitChar (n % 10) (by omega), by omega, gathers_nil.mpr (by omega)⟩

/-- The digits of a positive number do not start with a zero. -/
theorem toDigits_head {n : Nat} (h : 0 < n) : (Nat.toDigits 10 n).head? ≠ some '0' := by
  induction n using Nat.strongRecOn with
  | ind n ih =>
    by_cases hlt : n < 10
    · rw [Nat.toDigits_of_lt_base hlt]
      have hall : ∀ d < 10, 0 < d → [Nat.digitChar d].head? ≠ some '0' := by decide
      exact hall n hlt h
    · have hle : 10 ≤ n := by omega
      have hhead := ih (n / 10) (by omega) (by omega)
      obtain ⟨c, tail, hc⟩ :=
        List.exists_cons_of_ne_nil (Nat.toDigits_ne_nil (n := n / 10) (b := 10))
      rw [Nat.toDigits_of_base_le (by decide) hle, hc]
      rw [hc] at hhead
      exact hhead

theorem toDigits_zero (n : Nat) :
    Nat.toDigits 10 n = ['0'] ∨ (Nat.toDigits 10 n).head? ≠ some '0' := by
  rcases Nat.eq_zero_or_pos n with rfl | h
  · exact .inl rfl
  · exact .inr (toDigits_head h)

/-! ## Parts of a number -/

namespace Reader

variable (negative : Bool) (significand : Nat)

theorem real_yields (exponent : Int) (rest : List Char) :
    Yields ((real? negative significand exponent).map .real) rest
      (real negative significand exponent rest) := by
  unfold real
  cases real? negative significand exponent with
  | some x => exact ⟨rfl, rfl⟩
  | none => rfl

theorem exponentDigits_reads (start : Int) (below : Bool) {digits : List Char} {e : Nat}
    (hne : digits ≠ []) (h : Gathers exponentLimit 0 digits e) :
    Reads (exponentDigits negative significand start below) digits
      ((real? negative significand (if below then start - e else start + e)).map .real) := by
  obtain ⟨c, tail, rfl, hc⟩ := h.head hne
  intro rest hrest
  rw [List.cons_append, exponentDigits, if_pos hc, ← List.cons_append, h.followed hrest.noDigit]
  cases rest with
  | nil => exact real_yields negative significand _ []
  | cons d rest =>
    have hno : ¬ isDigit d = true := by simp [hrest.noDigit d rfl]
    dsimp only
    rw [if_neg hno]
    exact real_yields negative significand _ _

end Reader

/-- An exponent as it is written, or none. -/
inductive ExponentText : List Char → Int → Prop where
  | none : ExponentText [] 0
  | some {e : Int} : e.natAbs < exponentLimit →
      ExponentText ('e' :: (if e < 0 then '-' else '+') :: Nat.toDigits 10 e.natAbs) e

theorem ExponentText.noDigit {tail rest : List Char} {e : Int} (h : ExponentText tail e)
    (hrest : Ended rest) : NoDigit (tail ++ rest) := by
  cases h with
  | none => exact hrest.noDigit
  | some _ => exact noDigit_cons rfl _

namespace Reader

variable (negative : Bool) (significand : Nat)

theorem exponentPart_reads (start : Int) {e : Int} (h : e.natAbs < exponentLimit) :
    Reads (exponentPart negative significand start)
      ((if e < 0 then '-' else '+') :: Nat.toDigits 10 e.natAbs)
      ((real? negative significand (start + e)).map .real) := by
  have hdigits := gathers_toDigits h
  by_cases hneg : e < 0
  · have hsum : start + e = start - (e.natAbs : Nat) := by omega
    rw [if_pos hneg, hsum]
    exact exponentDigits_reads negative significand start true Nat.toDigits_ne_nil hdigits
  · have hsum : start + e = start + (e.natAbs : Nat) := by omega
    rw [if_neg hneg, hsum]
    exact exponentDigits_reads negative significand start false Nat.toDigits_ne_nil hdigits

theorem exponentIfAny_reads (start : Int) {tail : List Char} {e : Int} (h : ExponentText tail e) :
    Reads (exponentIfAny negative significand start) tail
      ((real? negative significand (start + e)).map .real) := by
  cases h with
  | some he => exact exponentPart_reads negative significand start he
  | none =>
    intro rest hrest
    rw [List.nil_append, Int.add_zero]
    unfold exponentIfAny
    split
    · exact absurd (hrest _ rfl) (by decide)
    · exact absurd (hrest _ rfl) (by decide)
    · exact real_yields negative significand start rest

theorem fraction_reads {digits tail : List Char} {m : Nat} {e : Int} (hne : digits ≠ [])
    (h : Gathers significandLimit significand digits m) (htail : ExponentText tail e) :
    Reads (fraction negative significand 0) (digits ++ tail)
      ((real? negative m (e - (digits.length : Nat))).map .real) := by
  have hexponent := exponentIfAny_reads negative m (0 - (digits.length : Nat)) htail
  have hsum : (0 - (digits.length : Nat) + e : Int) = e - (digits.length : Nat) := by omega
  rw [hsum] at hexponent
  obtain ⟨c, rest', hcons, hc⟩ := h.head hne
  intro rest hrest
  have hno := htail.noDigit hrest
  have hskip : (tail ++ rest).dropWhile isDigit = tail ++ rest := by
    cases hs : tail ++ rest with
    | nil => rfl
    | cons d s => rw [List.dropWhile_cons_of_neg (by simp [hno d (by rw [hs]; rfl)])]
  have hgather := h.followed hno
  rw [List.append_assoc]
  rw [hcons, List.cons_append] at hgather ⊢
  rw [fraction, if_pos hc, hgather]
  dsimp only
  rw [hskip, ← hcons]
  exact hexponent rest hrest

theorem afterInteger_ended {rest : List Char} (hrest : Ended rest) :
    afterInteger negative significand rest = .ok (integer negative significand) rest := by
  unfold afterInteger
  split
  · exact absurd (hrest _ rfl) (by decide)
  · exact absurd (hrest _ rfl) (by decide)
  · exact absurd (hrest _ rfl) (by decide)
  · rw [if_neg (by simp [hrest.noDigit _ rfl])]
  · rfl

theorem unsigned_zero {s : List Char} (hs : NoDigit s) :
    unsigned negative ('0' :: s) = afterInteger negative 0 s := by
  cases s with
  | nil => rfl
  | cons c s =>
    have hc : ¬ isDigit c = true := by simp [hs c rfl]
    simp only [unsigned]
    rw [if_neg hc]

theorem unsigned_digit {c : Char} (hc : isDigit c = true) (hz : c ≠ '0') (s : List Char) :
    unsigned negative (c :: s) =
      afterInteger negative (gather significandLimit 0 (c :: s)).1
        (gather significandLimit 0 (c :: s)).2.2 := by
  unfold unsigned
  split
  case h_1 heq => cases heq
  case h_2 heq => cases heq; exact absurd rfl hz
  case h_3 heq =>
    cases heq
    rw [if_pos hc]

/-- Integer digits have no zero in front, unless there is nothing else. -/
theorem unsigned_whole {whole s : List Char} {m : Nat} (hne : whole ≠ [])
    (h : Gathers significandLimit 0 whole m) (hzero : whole = ['0'] ∨ whole.head? ≠ some '0')
    (hs : NoDigit s) : unsigned negative (whole ++ s) = afterInteger negative m s := by
  rcases hzero with rfl | hzero
  · obtain ⟨d, hd, _, hm⟩ := gathers_cons.mp h
    cases hd
    rw [← gathers_nil.mp hm]
    exact unsigned_zero negative hs
  · obtain ⟨c, tail, hcons, hc⟩ := h.head hne
    have hgather := h.followed hs
    rw [hcons] at hzero
    rw [hcons, List.cons_append] at hgather ⊢
    rw [unsigned_digit negative hc (fun heq => hzero (by rw [heq]; rfl)), hgather]

/-- A number with a fraction. -/
theorem unsigned_fraction {whole digits tail : List Char} {m n : Nat} {e : Int} (hne : whole ≠ [])
    (hwhole : Gathers significandLimit 0 whole m) (hzero : whole = ['0'] ∨ whole.head? ≠ some '0')
    (hne' : digits ≠ []) (hdigits : Gathers significandLimit m digits n)
    (htail : ExponentText tail e) :
    Reads (unsigned negative) (whole ++ '.' :: (digits ++ tail))
      ((real? negative n (e - (digits.length : Nat))).map .real) := by
  intro rest hrest
  rw [List.append_assoc, List.cons_append,
    unsigned_whole negative hne hwhole hzero (noDigit_cons rfl _)]
  exact fraction_reads negative m hne' hdigits htail rest hrest

/-- A number without a fraction that has an exponent. -/
theorem unsigned_exponent {whole : List Char} {m : Nat} {e : Int} (hne : whole ≠ [])
    (hwhole : Gathers significandLimit 0 whole m) (hzero : whole = ['0'] ∨ whole.head? ≠ some '0')
    (he : e.natAbs < exponentLimit) :
    Reads (unsigned negative)
      (whole ++ 'e' :: (if e < 0 then '-' else '+') :: Nat.toDigits 10 e.natAbs)
      ((real? negative m e).map .real) := by
  have hexponent := exponentPart_reads negative m 0 he
  rw [Int.zero_add] at hexponent
  intro rest hrest
  rw [List.append_assoc, List.cons_append,
    unsigned_whole negative hne hwhole hzero (noDigit_cons rfl _)]
  exact hexponent rest hrest

end Reader

/-! ## Decimals -/

theorem numeral_digit {c : Char} (hc : isDigit c = true) (s : List Char) :
    Reader.numeral (c :: s) = Reader.unsigned false (c :: s) := by
  unfold Reader.numeral
  split
  case h_1 heq => cases heq; cases hc
  case h_2 => rfl

/-- What is read as a number starts with a digit. -/
theorem head_of_reads {text : List Char} {negative : Bool} {n : Numeral}
    (h : Reads (Reader.unsigned negative) text (some n)) :
    ∃ c tail, text = c :: tail ∧ isDigit c = true := by
  have hread := yields_some.mp (h [] ended_nil)
  cases text with
  | nil => cases hread
  | cons c tail =>
    refine ⟨c, tail, rfl, ?_⟩
    by_contra hc
    unfold Reader.unsigned at hread
    split at hread
    case h_1 heq => cases heq
    case h_2 heq =>
      cases heq
      exact hc rfl
    case h_3 heq =>
      cases heq
      rw [if_neg hc] at hread
      cases hread

/-- A sign in front is the sign of the number. -/
theorem numeral_reads {text : List Char} {negative : Bool} {o : Option Numeral}
    (hhead : ∃ c tail, text = c :: tail ∧ isDigit c = true)
    (h : Reads (Reader.unsigned negative) text o) :
    Reads Reader.numeral (if negative then '-' :: text else text) o := by
  cases negative with
  | true => exact h
  | false =>
    obtain ⟨c, tail, rfl, hc⟩ := hhead
    intro rest hrest
    have hread := h rest hrest
    rw [List.cons_append] at hread
    show Yields o rest (Reader.numeral (c :: (tail ++ rest)))
    rw [numeral_digit hc]
    exact hread

/-- The digits and the power of ten as which a decimal is read: its own, unless it is written as a
whole number with one place after the point. -/
def ReadAs (d : Nat) (k : Int) (n : Nat) (j : Int) : Prop :=
  n = d ∧ j = k ∨ 0 ≤ k ∧ n = d * 10 ^ (k.toNat + 1) ∧ n < 10 ^ 14 ∧ j = -1

theorem lt_pow_length (d : Nat) : d < 10 ^ (Nat.toDigits 10 d).length :=
  (Nat.length_toDigits_le_iff (by decide) Nat.length_toDigits_pos).mp (Nat.le_refl _)

theorem digits_lt {d : Nat} {k : Int} (hk : 0 ≤ k)
    (h : k + ((Nat.toDigits 10 d).length : Nat) - 1 ≤ 12) : d * 10 ^ (k.toNat + 1) < 10 ^ 14 := by
  calc d * 10 ^ (k.toNat + 1) < 10 ^ (Nat.toDigits 10 d).length * 10 ^ (k.toNat + 1) :=
        Nat.mul_lt_mul_of_pos_right (lt_pow_length d) (Nat.pow_pos (by decide))
    _ = 10 ^ ((Nat.toDigits 10 d).length + (k.toNat + 1)) := (Nat.pow_add ..).symm
    _ ≤ 10 ^ 14 := Nat.pow_le_pow_right (by decide) (by omega)

theorem pointed_reads (negative : Bool) {digits : List Char} {d : Nat} {e : Int} (hne : digits ≠ [])
    (hdigits : Gathers significandLimit 0 digits d) (hzero : digits.head? ≠ some '0')
    (he : e.natAbs < exponentLimit) :
    Reads (Reader.unsigned negative)
      (Number.Layout.pointed digits ++
        'e' :: (if e < 0 then '-' else '+') :: Nat.toDigits 10 e.natAbs)
      ((real? negative d (e - (digits.length - 1 : Nat))).map .real) := by
  match digits, hne with
  | [c], _ =>
    rw [(by simp : e - (([c].length - 1 : Nat) : Int) = e)]
    exact Reader.unsigned_exponent negative (List.cons_ne_nil _ _) hdigits (.inr hzero) he
  | c :: x :: rest, _ =>
    obtain ⟨m, hc, hrest⟩ := (gathers_append (s := [c])).mp hdigits
    exact Reader.unsigned_fraction negative (List.cons_ne_nil _ _) hc (.inr hzero)
      (List.cons_ne_nil _ _) hrest (.some he)

/-- A positive decimal is read as it was written. -/
theorem decimal_reads {d : Nat} {k : Int} (hpos : 0 < d) (hd : d < 2 ^ 28) (hlow : -45 ≤ k)
    (hhigh : k ≤ 38) : ∃ n j, ReadAs d k n j ∧ ∀ negative,
      Reads (Reader.unsigned negative) (Number.Layout.single.decimal ⟨d, k⟩)
        ((real? negative n j).map .real) := by
  have hgathers : Gathers significandLimit 0 (Nat.toDigits 10 d) d :=
    gathers_toDigits (Nat.lt_trans hd (by decide))
  have hzero := toDigits_head hpos
  have hne : Nat.toDigits 10 d ≠ [] := Nat.toDigits_ne_nil
  have hlen : (Nat.toDigits 10 d).length ≤ 9 :=
    (Nat.length_toDigits_le_iff (by decide) (by decide)).mpr (Nat.lt_trans hd (by decide))
  have hlen0 : 0 < (Nat.toDigits 10 d).length := Nat.length_toDigits_pos
  have hsmall := digits_lt (d := d) (k := k)
  unfold Number.Layout.decimal
  dsimp only
  generalize Nat.toDigits 10 d = digits at *
  split
  case isTrue hplain =>
    split
    case isTrue hk =>
      have hlt := hsmall hk hplain.2
      have hten : d * 10 ^ (k.toNat + 1) = 10 * (d * 10 ^ k.toNat) + 0 := by
        rw [Nat.pow_succ, Nat.add_zero]
        ac_rfl
      have hlimit : 10 ^ 14 < significandLimit := by decide
      have hwhole : Gathers significandLimit 0 (digits ++ List.replicate k.toNat '0')
          (d * 10 ^ k.toNat) := gathers_append.mpr ⟨d, hgathers, gathers_zeros _ (by omega)⟩
      have hplace : Gathers significandLimit (d * 10 ^ k.toNat) ['0'] (d * 10 ^ (k.toNat + 1)) :=
        gathers_cons.mpr ⟨0, rfl, by omega, gathers_nil.mpr hten.symm⟩
      have hhead : (digits ++ List.replicate k.toNat '0').head? ≠ some '0' := by
        cases digits with
        | nil => exact absurd rfl hne
        | cons c tail => exact hzero
      refine ⟨d * 10 ^ (k.toNat + 1), -1, .inr ⟨hk, rfl, hlt, rfl⟩, fun negative => ?_⟩
      exact Reader.unsigned_fraction negative (List.append_ne_nil_of_left_ne_nil hne _) hwhole
        (.inr hhead) (List.cons_ne_nil _ _) hplace .none
    case isFalse hk =>
      refine ⟨d, k, .inl ⟨rfl, rfl⟩, fun negative => ?_⟩
      split
      case isTrue hfirst =>
        -- The point stands between the digits.
        generalize hplaces : (k + (digits.length : Nat) - 1).toNat + 1 = places
        have htake : digits.take places ≠ [] := by
          rw [Ne, List.take_eq_nil_iff]
          simp [hne, ← hplaces]
        have hdrop : digits.drop places ≠ [] := by
          rw [Ne, List.drop_eq_nil_iff]
          omega
        rw [← List.take_append_drop places digits, gathers_append] at hgathers
        obtain ⟨m, hwhole, hplace⟩ := hgathers
        have hread := Reader.unsigned_fraction negative htake hwhole
          (.inr (by rwa [List.head?_take, if_neg (by omega)])) hdrop hplace .none
        rw [List.append_nil, List.length_drop,
          (by omega : (0 : Int) - (digits.length - places : Nat) = k)] at hread
        exact hread
      case isFalse hfirst =>
        generalize hzeros : (-(k + (digits.length : Nat) - 1) - 1).toNat = zeros
        have hplace : Gathers significandLimit 0 (List.replicate zeros '0' ++ digits) d := by
          have hfront : Gathers significandLimit 0 (List.replicate zeros '0') (0 * 10 ^ zeros) :=
            gathers_zeros zeros (by rw [Nat.zero_mul]; decide)
          rw [Nat.zero_mul] at hfront
          exact gathers_append.mpr ⟨0, hfront, hgathers⟩
        have hread := Reader.unsigned_fraction negative (List.cons_ne_nil '0' [])
          (gathers_cons.mpr ⟨0, rfl, by decide, gathers_nil.mpr rfl⟩) (.inl rfl)
          (List.append_ne_nil_of_right_ne_nil _ hne) hplace .none
        rw [List.append_nil, List.length_append, List.length_replicate,
          (by omega : (0 : Int) - (zeros + digits.length : Nat) = k)] at hread
        exact hread
  case isFalse =>
    refine ⟨d, k, .inl ⟨rfl, rfl⟩, fun negative => ?_⟩
    have hread := pointed_reads negative hne hgathers hzero
      (e := k + (digits.length : Nat) - 1) (Nat.lt_of_le_of_lt (by omega : _ ≤ 100) (by decide))
    rw [(by omega : k + (digits.length : Nat) - 1 - (digits.length - 1 : Nat) = k)] at hread
    exact hread

/-- The digits of a number that fits a significand are read as that number. -/
theorem numeral_toDigits {n : Nat} (h : n < significandLimit) :
    Reads Reader.numeral (Nat.toDigits 10 n) (some (.integer n)) := by
  have hdigits := gathers_toDigits h
  have hread : Reads (Reader.unsigned false) (Nat.toDigits 10 n) (some (.integer n)) := by
    intro rest hrest
    rw [yields_some, Reader.unsigned_whole false Nat.toDigits_ne_nil hdigits (toDigits_zero n)
      hrest.noDigit]
    exact Reader.afterInteger_ended false n hrest
  exact numeral_reads (hdigits.head Nat.toDigits_ne_nil) hread

/-! ## Numbers of a type -/

theorem isSpace_numeral {c : Char} (h : (c = '-' || isDigit c) = true) :
    Reader.isSpace c = false := by
  cases hs : Reader.isSpace c with
  | false => rfl
  | true =>
    simp only [Reader.isSpace, Bool.or_eq_true, decide_eq_true_eq] at hs
    rcases hs with ((rfl | rfl) | rfl) | rfl <;> cases h

/-- No other value starts like a number. -/
theorem ne_of_numeral {c : Char} (h : (c = '-' || isDigit c) = true) :
    c ≠ 'n' ∧ c ≠ 't' ∧ c ≠ 'f' ∧ c ≠ '"' ∧ c ≠ '[' ∧ c ≠ '\x7b' := by
  refine ⟨?_, ?_, ?_, ?_, ?_, ?_⟩ <;> rintro rfl <;> cases h

section

variable {pre text : List Char} {o : Option Numeral}

/-- Both readers of typed numbers look for a sign or a digit first. -/
theorem single_reads (hpre : Blank pre) (ht : Reads Reader.numeral text o)
    (hhead : ∃ c tail, text = c :: tail ∧ (c = '-' || isDigit c) = true) :
    Reads Reader.single (pre ++ text) (o.map Numeral.toFloat32) := by
  intro rest hrest
  obtain ⟨c, tail, rfl, hc⟩ := hhead
  apply Yields.settled
  rw [List.append_assoc, List.cons_append, Reader.peek_bind hpre (isSpace_numeral hc)]
  dsimp only
  rw [if_pos hc]
  exact (ht rest hrest).map _

theorem single_null (hpre : Blank pre) :
    Reads Reader.single (pre ++ ['n', 'u', 'l', 'l']) none := by
  intro rest _
  apply Yields.settled
  rw [List.append_assoc, List.cons_append, Reader.peek_bind hpre rfl]
  exact yields_none.mpr ⟨_, _, rfl⟩

theorem value_numeral (hpre : Blank pre) (ht : Reads Reader.numeral text o)
    (hhead : ∃ c tail, text = c :: tail ∧ (c = '-' || isDigit c) = true) (depth : Nat) :
    Reads (Reader.value (depth + 1)) (pre ++ text) (o.map Json.number) := by
  intro rest hrest
  obtain ⟨c, tail, rfl, hc⟩ := hhead
  obtain ⟨hnull, htrue, hfalse, hquote, hlist, hobject⟩ := ne_of_numeral hc
  rw [List.append_assoc, List.cons_append, Reader.value, Reader.peek_bind hpre (isSpace_numeral hc)]
  simp only [hc, if_true]
  exact (ht rest hrest).map _

theorem word32_reads (hpre : Blank pre) (n : UInt32) :
    Reads Reader.word32 (pre ++ Nat.toDigits 10 n.toNat) (some n) := by
  intro rest hrest
  have hlt : n.toNat < significandLimit := Nat.lt_of_lt_of_le n.toNat_lt (by decide)
  have hread := yields_some.mp (numeral_toDigits hlt rest hrest)
  obtain ⟨c, tail, hct, hc⟩ := (gathers_toDigits hlt).head Nat.toDigits_ne_nil
  have hstart : (c = '-' || isDigit c) = true := by simp [hc]
  apply Yields.settled
  rw [List.append_assoc, hct, List.cons_append, Reader.peek_bind hpre (isSpace_numeral hstart)]
  dsimp only
  rw [if_pos hstart, ← List.cons_append, ← hct, yields_some, bind_ok hread, Reader.wordOf,
    if_pos ⟨Int.natCast_nonneg _, n.toNat_lt⟩]
  show EStateM.Result.ok n.toNat.toUInt32 rest = .ok n rest
  rw [Nat.toUInt32_eq, UInt32.ofNat_toNat]

end

end Widgetry.Json
