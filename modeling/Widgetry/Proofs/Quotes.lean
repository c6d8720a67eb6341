import Widgetry.Proofs.Reading

/-!
# Written strings

Every string is read back as it was written, whatever characters it holds and whatever follows it:
`string_reads`. One written character is read in one step, so that the rest is an induction along
the string.
-/

namespace Widgetry.Json

/-! ## Numbered escapes -/

theorem hexDigits_length (width n : Nat) : (Text.hexDigits width n).length = width := by
  induction width generalizing n with
  | zero => rfl
  | succ width ih => rw [Text.hexDigits, List.length_append, ih, List.length_singleton]

/-- Control characters as the escapes that number them. -/
theorem control_digits : ∀ n < 32, Text.hexNumber? (Text.hexDigits 4 n) = some n ∧
    (bytesOf (Text.hexDigits 4 n)).length = 4 ∧ (Char.ofNat n).toNat = n := by
  decide

namespace Reader

theorem hexEscape_control {n : Nat} (h : n < 32) (s : List Char) :
    hexEscape (Text.hexDigits 4 n ++ s) = .ok n s := by
  obtain ⟨hnumber, hbytes, _⟩ := control_digits n h
  have htake : (Text.hexDigits 4 n ++ s).take 4 = Text.hexDigits 4 n :=
    List.take_left' (hexDigits_length 4 n)
  have hdrop : (Text.hexDigits 4 n ++ s).drop 4 = s := List.drop_left' (hexDigits_length 4 n)
  rw [hexEscape, htake, hdrop, hbytes, hnumber, if_neg (by decide)]

theorem numberedEscape_control {n : Nat} (h : n < 32) (s : List Char) :
    numberedEscape (Text.hexDigits 4 n ++ s) = .ok (Char.ofNat n) s := by
  rw [numberedEscape, bind_ok (hexEscape_control h s), if_neg (by omega), if_pos (by omega)]
  rfl

/-! ## Characters -/

/-- A character is written as an escape that stands for it, or as it is if it may stand in a
string. -/
theorem writtenChar_cases (c : Char) :
    (∃ e, writtenChar c = '\\' :: e ∧ ∀ s, escape (e ++ s) = .ok c s) ∨
      (writtenChar c = [c] ∧ c ≠ '"' ∧ c ≠ '\\' ∧ ¬ c < ' ') := by
  by_cases hletter : c = '"' ∨ c = '\\' ∨ c = '\x08' ∨ c = '\x0c' ∨ c = '\n' ∨ c = '\r' ∨ c = '\t'
  · rcases hletter with rfl | rfl | rfl | rfl | rfl | rfl | rfl <;>
      exact .inl ⟨_, rfl, fun _ => rfl⟩
  · simp only [not_or] at hletter
    obtain ⟨hq, hb, h8, hc, hn, hr, ht⟩ := hletter
    by_cases hlt : c < ' '
    · refine .inl ⟨'u' :: Text.hexDigits 4 c.toNat, ?_, fun s => ?_⟩
      · simp [writtenChar, hq, hb, h8, hc, hn, hr, ht, hlt]
      · have hnumbered := numberedEscape_control (n := c.toNat) hlt s
        rw [Char.ofNat_toNat] at hnumbered
        exact hnumbered
    · exact .inr ⟨by simp [writtenChar, hq, hb, h8, hc, hn, hr, ht, hlt], hq, hb, hlt⟩

/-- An escape takes one step. -/
theorem stringRest_escape (fuel : Nat) {e s : List Char} {c : Char}
    (he : escape (e ++ s) = .ok c s) :
    stringRest (fuel + 1) ('\\' :: (e ++ s)) =
      (do let cs ← stringRest fuel
          return c :: cs : Reader (List Char)) s := by
  show (do let c ← escape
           let cs ← stringRest fuel
           return c :: cs : Reader (List Char)) (e ++ s) = _
  rw [bind_ok he]

/-- A character that stands for itself takes one step. -/
theorem stringRest_plain (fuel : Nat) {c : Char} (hquote : c ≠ '"') (hback : c ≠ '\\')
    (hcontrol : ¬ c < ' ') (s : List Char) :
    stringRest (fuel + 1) (c :: s) =
      (do let cs ← stringRest fuel
          return c :: cs : Reader (List Char)) s := by
  conv => lhs; unfold stringRest
  split
  case h_1 heq => cases heq
  case h_2 heq => cases heq; exact absurd rfl hquote
  case h_3 heq => cases heq; exact absurd rfl hback
  case h_4 heq =>
    cases heq
    rw [if_neg hcontrol]

/-- A written character takes one step. -/
theorem stringRest_writtenChar (fuel : Nat) (c : Char) (s : List Char) :
    stringRest (fuel + 1) (writtenChar c ++ s) =
      (do let cs ← stringRest fuel
          return c :: cs : Reader (List Char)) s := by
  rcases writtenChar_cases c with ⟨e, hw, he⟩ | ⟨hw, hquote, hback, hcontrol⟩
  · rw [hw, List.cons_append]
    exact stringRest_escape fuel (he s)
  · rw [hw, List.singleton_append]
    exact stringRest_plain fuel hquote hback hcontrol s

/-! ## Strings -/

theorem stringRest_written {fuel : Nat} (cs rest : List Char) (h : cs.length < fuel) :
    stringRest fuel (cs.flatMap writtenChar ++ '"' :: rest) = .ok cs rest := by
  induction cs generalizing fuel with
  | nil =>
    obtain ⟨fuel, rfl⟩ : ∃ k, fuel = k + 1 := ⟨fuel - 1, by omega⟩
    rfl
  | cons c cs ih =>
    obtain ⟨fuel, rfl⟩ : ∃ k, fuel = k + 1 := ⟨fuel - 1, by omega⟩
    rw [List.flatMap_cons, List.append_assoc, stringRest_writtenChar,
      bind_ok (ih (by simpa using h))]
    rfl

theorem writtenChar_length (c : Char) : 1 ≤ (writtenChar c).length := by
  rcases writtenChar_cases c with ⟨e, hw, _⟩ | ⟨hw, _⟩ <;> simp [hw]

theorem length_le_written (cs : List Char) : cs.length ≤ (cs.flatMap writtenChar).length := by
  induction cs with
  | nil => exact Nat.le_refl 0
  | cons c cs ih =>
    have hc := writtenChar_length c
    rw [List.flatMap_cons, List.length_append, List.length_cons]
    omega

/-- After its opening quote, a written string is read to its end. -/
theorem string_written (s : String) (rest : List Char) :
    string (s.toList.flatMap writtenChar ++ '"' :: rest) = .ok s rest := by
  have hlen := length_le_written s.toList
  have hread : stringRest ((s.toList.flatMap writtenChar ++ '"' :: rest).length + 1)
      (s.toList.flatMap writtenChar ++ '"' :: rest) = .ok s.toList rest :=
    stringRest_written s.toList rest (by rw [List.length_append]; omega)
  have hfuel : fuel (s.toList.flatMap writtenChar ++ '"' :: rest) =
      .ok ((s.toList.flatMap writtenChar ++ '"' :: rest).length + 1)
        (s.toList.flatMap writtenChar ++ '"' :: rest) := rfl
  rw [string, bind_ok hfuel, bind_ok hread]
  show EStateM.Result.ok (String.ofList s.toList) rest = .ok s rest
  rw [String.ofList_toList]

end Reader

/-- Past its opening quote, a written string is taken as a whole by whatever goes on with it. -/
theorem string_bind {β : Type} (s : String) (rest : List Char) (k : String → Reader β) :
    (Reader.advance >>= fun _ => Reader.string >>= k) (writtenString s ++ rest) = k s rest := by
  rw [writtenString, List.cons_append, Reader.advance_bind, List.append_assoc,
    List.singleton_append, bind_ok (Reader.string_written s rest)]

theorem peek_written {β : Type} {pre : List Char} (hpre : Blank pre) (s : String)
    (rest : List Char) (k : Option Char → Reader β) :
    (Reader.peek >>= k) (pre ++ (writtenString s ++ rest)) =
      k (some '"') (writtenString s ++ rest) :=
  Reader.peek_bind hpre rfl _ k

theorem string_reads {pre : List Char} (hpre : Blank pre) (expected s : String) :
    Reads (Reader.stringThen expected pure) (pre ++ writtenString s) (some s) := by
  intro rest _
  apply Yields.settled
  rw [List.append_assoc, peek_written hpre, yields_some]
  exact string_bind s rest pure

theorem value_string {pre : List Char} (hpre : Blank pre) (depth : Nat) (s : String) :
    Reads (Reader.value (depth + 1)) (pre ++ writtenString s) (some (.string s)) := by
  intro rest _
  rw [List.append_assoc, Reader.value, peek_written hpre, yields_some]
  exact string_bind s rest fun s => pure (Json.string s)

/-- The first key of an object. -/
theorem nextKey_first {pre : List Char} (hpre : Blank pre) (key : String) (rest : List Char) :
    Reader.nextKey true (pre ++ (writtenString key ++ rest)) = .ok (some key) rest := by
  have hhas : Reader.hasKey true (pre ++ (writtenString key ++ rest)) =
      .ok true (writtenString key ++ rest) := by
    rw [Reader.hasKey, peek_written hpre]
    rfl
  rw [Reader.nextKey, bind_ok hhas]
  exact string_bind key rest fun s => pure (some s)

/-- A further key, after the comma between members. -/
theorem nextKey_further {pre : List Char} (hpre : Blank pre) (key : String) (rest : List Char) :
    Reader.nextKey false (',' :: (pre ++ (writtenString key ++ rest))) = .ok (some key) rest := by
  have hhas : Reader.hasKey false (',' :: (pre ++ (writtenString key ++ rest))) =
      .ok true (writtenString key ++ rest) := by
    rw [Reader.hasKey, Reader.peek_cons rfl]
    simp only [Bool.false_eq_true, if_false]
    rw [Reader.advance_bind, peek_written hpre]
    rfl
  rw [Reader.nextKey, bind_ok hhas]
  exact string_bind key rest fun s => pure (some s)

theorem nextKey_end {pre : List Char} (hpre : Blank pre) (first : Bool) (rest : List Char) :
    Reader.nextKey first (pre ++ '\x7d' :: rest) = .ok none ('\x7d' :: rest) := by
  have hhas : Reader.hasKey first (pre ++ '\x7d' :: rest) = .ok false ('\x7d' :: rest) := by
    rw [Reader.hasKey, Reader.peek_bind hpre rfl]
    rfl
  rw [Reader.nextKey, bind_ok hhas]
  rfl

end Widgetry.Json
