import Widgetry.Proofs.Passing
import Widgetry.Proofs.Reread

/-!
# Values wherever they stand

A well-formed value inside a text is read as it is on its own: the blanks before it, what follows
and how many levels are left play no part, as long as there are enough (`Steady`). It may be
refused, but then it is refused everywhere.
-/

namespace Widgetry.Json

variable {α β σ : Type}

/-- What is read from a text, if anything is. -/
def own [Codec α] (text : List Char) : Option α := (parse (String.ofList text)).toOption

/-- What is made of a text at any depth from the given one on, with blanks before it. -/
def ReadsValue (r : Nat → Reader α) (levels : Nat) (text : List Char) (o : Option α) : Prop :=
  ∀ depth, levels ≤ depth → ∀ pre, Blank pre → Reads (r depth) (pre ++ text) o

/-- Every well-formed value is read as on its own, if the given levels are left. -/
structure Steady (α : Type) [Codec α] (levels : Nat) : Prop where
  levels_le : levels ≤ depthLimit
  reads : ∀ v, IsValue v → ReadsValue (Codec.read : Nat → Reader α) levels v (own v)

theorem ReadsValue.own_eq [Codec α] {levels : Nat} {text : List Char} {o : Option α}
    (h : ReadsValue Codec.read levels text o) (hlevels : levels ≤ depthLimit) : own text = o := by
  refine parse_reads ?_
  rw [String.toList_ofList]
  exact h depthLimit hlevels [] blank_nil

theorem steady_of_reads [Codec α] {levels : Nat} (hlevels : levels ≤ depthLimit)
    (h : ∀ v, IsValue v → ∃ o, ReadsValue (Codec.read : Nat → Reader α) levels v o) :
    Steady α levels := by
  refine ⟨hlevels, ?_⟩
  intro v hv
  obtain ⟨o, ho⟩ := h v hv
  rw [ho.own_eq hlevels]
  exact ho

/-- Blanks around a value do not count. -/
theorem Steady.own_padded [Codec α] {levels : Nat} (h : Steady α levels) {p : Padded}
    (hv : IsValue p.text) : (own p.chars : Option α) = own p.text := by
  have hafter : Ended p.after := by simpa using ended_append p.after.2 ended_nil
  have hread := h.reads p.text hv depthLimit h.levels_le p.before p.before.2 p.after hafter
  rw [List.append_assoc] at hread
  refine parse_yields p.after.2 ?_
  rw [String.toList_ofList]
  exact hread

/-! ## Values of another type -/

namespace Reader

/-- A reader that never succeeds. -/
def Fails (r : Reader α) : Prop := ∀ s, ∃ f left, r s = .error f left

theorem fails_later (p : Problem) : Fails (failLater p : Reader α) := fun _ => ⟨_, _, rfl⟩

theorem fails_next (p : Problem) : Fails (failNext p : Reader α) := fun _ => ⟨_, _, rfl⟩

theorem Fails.yields {r : Reader α} (h : Fails r) (rest s : List Char) : Yields none rest (r s) :=
  yields_none.mpr (h s)

theorem Fails.bind (r : Reader β) {k : β → Reader α} (h : ∀ b, Fails (k b)) : Fails (r >>= k) := by
  intro s
  cases hr : r s with
  | ok b left =>
    rw [bind_ok hr]
    exact h b left
  | error f left =>
    have hfail : Yields none [] (r s) := yields_none.mpr ⟨f, left, hr⟩
    have hbind : Yields none [] ((r >>= k) s) := hfail.bind_none k
    exact yields_none.mp hbind

theorem mismatch_fails (expected : String) : Fails (mismatch expected : Reader α) := by
  intro s
  suffices h : Yields none [] (mismatch expected s) from yields_none.mp h
  refine Yields.settled (Fails.yields (Fails.bind _ fun o => ?_) [] s)
  split
  case h_1 => exact Fails.bind _ fun _ => Fails.bind _ fun _ => fails_later _
  case h_2 => exact Fails.bind _ fun _ => Fails.bind _ fun _ => fails_later _
  case h_3 => exact Fails.bind _ fun _ => Fails.bind _ fun _ => fails_later _
  case h_4 => exact Fails.bind _ fun _ => Fails.bind _ fun _ => fails_later _
  case h_5 => exact fails_later _
  case h_6 => exact fails_later _
  case h_7 =>
    split
    · exact Fails.bind _ fun _ => fails_later _
    · exact fails_next _
  case h_8 => exact fails_next _

end Reader

open Reader

/-- A reader that looks at the first character, on a text that starts with one. -/
theorem reads_settled {pre : List Char} (hpre : Blank pre) {c : Char} (hc : isSpace c = false)
    {tail : List Char} {k : Option Char → Reader α} {o : Option α}
    (h : Reads (k (some c)) (c :: tail) o) : Reads (settled (peek >>= k)) (pre ++ c :: tail) o := by
  intro rest hrest
  apply Yields.settled
  rw [List.append_assoc, List.cons_append, peek_bind hpre hc]
  exact h rest hrest

theorem reads_failed {pre : List Char} (hpre : Blank pre) {c : Char} (hc : isSpace c = false)
    {tail : List Char} {k : Option Char → Reader α} (h : Fails (k (some c))) :
    Reads (settled (peek >>= k)) (pre ++ c :: tail) none :=
  reads_settled hpre hc fun rest _ => h.yields rest _

/-! ## Numbers and strings -/

theorem single_steady : Steady Float32 0 := by
  refine steady_of_reads (Nat.zero_le _) ?_
  intro v hv
  cases hv with
  | number hn => exact ⟨_, fun _ _ _ hpre => single_reads hpre (numeral_steady hn) hn.head⟩
  | _ => exact ⟨none, fun _ _ _ hpre => reads_failed hpre rfl (mismatch_fails _)⟩

/-- The number of 32 bits that a numeral is, if it is one. -/
def wordOf? : Numeral → Option UInt32
  | .integer n => if 0 ≤ n ∧ n.toNat < Nat.pow 2 32 then some n.toNat.toUInt32 else none
  | .real _ => none

theorem wordOf_yields (n : Numeral) (s : List Char) : Yields (wordOf? n) s (wordOf n s) := by
  cases n with
  | real x => exact (fails_later _).yields s s
  | integer n =>
    rw [wordOf?, wordOf]
    split
    · exact ⟨rfl, rfl⟩
    · exact (fails_later _).yields s s

theorem word32_steady : Steady UInt32 0 := by
  refine steady_of_reads (Nat.zero_le _) ?_
  intro v hv
  cases hv with
  | number hn =>
    obtain ⟨c, tail, hv, hc⟩ := hn.head
    refine ⟨(numeral.alone v).bind wordOf?, fun _ _ pre hpre => ?_⟩
    have hread := numeral_steady hn
    rw [hv] at hread ⊢
    refine reads_settled hpre (isSpace_numeral hc) ?_
    intro rest hrest
    dsimp only
    rw [if_pos hc]
    exact (hread rest hrest).bind fun n _ => wordOf_yields n rest
  | _ => exact ⟨none, fun _ _ _ hpre => reads_failed hpre rfl (mismatch_fails _)⟩

/-- The string between quotes, if there is one. -/
def unquoted? (s : List Char) : Option String := Reader.string.alone (s ++ ['"'])

theorem unquoted_yields {s : List Char} (h : IsQuoted s) (rest : List Char) :
    Yields (unquoted? s) rest (Reader.string (s ++ '"' :: rest)) := by
  obtain ⟨o, ho⟩ := readsQuoted_steady h
  have hread : Reads Reader.string (s ++ ['"']) (o.map String.ofList) := by
    intro rest _
    rw [List.append_assoc]
    exact ho.string rest
  rw [unquoted?, hread.alone]
  exact ho.string rest

theorem unquoted_spelled {s : List Char} {key : String} (h : Spelled s key.toList) :
    unquoted? s = some key := by
  have hread : Reads Reader.string (s ++ ['"']) (some (String.ofList key.toList)) := by
    intro rest _
    rw [List.append_assoc]
    exact (readsQuoted_spelled h).string rest
  rw [unquoted?, hread.alone, String.ofList_toList]

theorem string_steady : Steady String 0 := by
  refine steady_of_reads (Nat.zero_le _) ?_
  intro v hv
  cases hv with
  | @string s hs =>
    refine ⟨(unquoted? s).bind some, fun _ _ _ hpre => reads_settled hpre rfl ?_⟩
    intro rest _
    rw [List.cons_append, List.append_assoc]
    exact (unquoted_yields hs rest).bind fun a _ => ⟨rfl, rfl⟩
  | number hn =>
    obtain ⟨c, tail, rfl, hc⟩ := hn.head
    obtain ⟨_, _, _, hquote, _, _⟩ := ne_of_numeral hc
    refine ⟨none, fun _ _ _ hpre => reads_failed hpre (isSpace_numeral hc) ?_⟩
    simp only
    exact mismatch_fails _
  | _ => exact ⟨none, fun _ _ _ hpre => reads_failed hpre rfl (mismatch_fails _)⟩

/-! ## Values that may be missing -/

theorem null_or_head {v : List Char} (hv : IsValue v) :
    v = ['n', 'u', 'l', 'l'] ∨
      ∃ c tail, v = c :: tail ∧ isSpace c = false ∧ c ≠ 'n' := by
  cases hv with
  | null => exact .inl rfl
  | true => exact .inr ⟨'t', _, rfl, rfl, by decide⟩
  | false => exact .inr ⟨'f', _, rfl, rfl, by decide⟩
  | string _ => exact .inr ⟨'"', _, rfl, rfl, by decide⟩
  | list _ => exact .inr ⟨'[', _, rfl, rfl, by decide⟩
  | object _ _ => exact .inr ⟨'\x7b', _, rfl, rfl, by decide⟩
  | number hn =>
    obtain ⟨c, tail, hcons, hc⟩ := hn.head
    exact .inr ⟨c, tail, hcons, isSpace_numeral hc, (ne_of_numeral hc).1⟩

/-- What `null` or another value is read as. -/
theorem optional_reads [Codec α] {levels : Nat} (h : Steady α levels) {v : List Char}
    (hv : IsValue v) : ReadsValue (Codec.read : Nat → Reader (Option α)) levels v
      (if v = ['n', 'u', 'l', 'l'] then some none else (own v).map some) := by
  intro depth hdepth pre hpre rest hrest
  have hread := h.reads v hv depth hdepth [] blank_nil rest hrest
  show Yields _ rest (Reader.optional (Codec.read depth) _)
  rw [List.append_assoc]
  rcases null_or_head hv with rfl | ⟨c, tail, rfl, hc, hn⟩
  · rw [if_pos rfl]
    exact yields_some.mpr (peek_bind hpre rfl _ _)
  · have hne : some c = some 'n' → False := fun heq => hn (Option.some.inj heq)
    rw [if_neg fun heq => hn (List.cons.inj heq).1, List.cons_append, Reader.optional,
      peek_bind hpre hc]
    simp only
    exact hread.map some

theorem optional_steady [Codec α] {levels : Nat} (h : Steady α levels) :
    Steady (Option α) levels :=
  steady_of_reads h.levels_le fun _ hv => ⟨_, optional_reads h hv⟩

/-! ## Lists -/

namespace Reader

theorem hasElement_append {pre : List Char} (hpre : Blank pre) (first : Bool) (s : List Char) :
    hasElement first (pre ++ s) = hasElement first s :=
  bind_congr_left (peek_append hpre s) _

theorem hasElement_item {p : Padded} (hv : IsValue p.text) (first : Bool) (s : List Char) :
    hasElement first ((if first then [] else [',']) ++ (p.before ++ (p.text ++ s))) =
      .ok true (p.text ++ s) := by
  obtain ⟨c, tail, hcons, hc, hend⟩ := value_head hv
  rw [hcons, List.cons_append]
  cases first with
  | true => exact hasElement_first p.before.2 hc hend _
  | false => exact hasElement_further p.before.2 hc hend _

end Reader

theorem length_le_further (parts : List (List Char)) :
    parts.length ≤ (listed false parts).length := by
  induction parts with
  | nil => exact Nat.le_refl 0
  | cons part parts ih =>
    simp only [listed, Bool.false_eq_true, if_false, List.length_append, List.length_cons]
    omega

theorem length_le_listed (parts : List (List Char)) :
    parts.length ≤ (listed true parts).length + 1 := by
  cases parts with
  | nil => exact Nat.zero_le _
  | cons part parts =>
    have hrest := length_le_further parts
    simp only [listed, List.length_append, List.length_cons]
    omega

section Lists

variable {item : Reader α} {read : Padded → Option α} {items : List Padded}

/-- The elements of a list up to its bracket, by induction on the elements. -/
theorem elementsRest_listed (hv : ∀ p ∈ items, IsValue p.text)
    (h : ∀ p ∈ items, Reads item p.text (read p)) (first : Bool) {fuel : Nat}
    (hfuel : items.length < fuel) {pre : List Char} (hpre : Blank pre) (gap : Blanks)
    (rest : List Char) :
    Yields (items.mapM read) (']' :: rest) (elementsRest item fuel first
      (pre ++ (listed first (items.map Padded.chars) ++ (gap ++ ']' :: rest)))) := by
  induction items generalizing first fuel pre with
  | nil =>
    obtain ⟨fuel, rfl⟩ : ∃ k, fuel = k + 1 := ⟨fuel - 1, by omega⟩
    have hend : hasElement first (pre ++ (gap ++ ']' :: rest)) = .ok false (']' :: rest) :=
      (hasElement_append hpre first _).trans (hasElement_end gap.2 first rest)
    exact yields_some.mpr (bind_ok hend)
  | cons p items ih =>
    obtain ⟨fuel, rfl⟩ : ∃ k, fuel = k + 1 := ⟨fuel - 1, by omega⟩
    have hlater := listed_ended (items.map Padded.chars) gap.2 (rfl : endsValue ']' = true) rest
    have hitem := h p List.mem_cons_self _ (ended_append p.after.2 hlater)
    have hrest := ih (fun q hq => hv q (List.mem_cons_of_mem p hq))
      (fun q hq => h q (List.mem_cons_of_mem p hq)) false (by simpa using hfuel) p.after.2
    rw [List.map_cons, listed, Padded.chars, List.mapM_cons]
    simp only [List.append_assoc]
    exact elementsRest_step ((hasElement_append hpre first _).trans
      (hasElement_item (hv p List.mem_cons_self) first _)) hitem hrest

theorem elements_listed (hv : ∀ p ∈ items, IsValue p.text)
    (h : ∀ p ∈ items, Reads item p.text (read p)) (gap : Blanks) (rest : List Char) :
    Yields (items.mapM read) rest
      (elements item (listed true (items.map Padded.chars) ++ (gap ++ ']' :: rest))) := by
  have hlen := length_le_listed (items.map Padded.chars)
  rw [List.length_map] at hlen
  refine elements_closed (elementsRest_listed hv h true ?_ blank_nil gap rest)
  simp only [List.length_append, List.length_cons]
  omega

end Lists

theorem listOf_listed [Codec α] {levels : Nat} (h : Steady α levels) {items : List Padded}
    (hv : ∀ p ∈ items, IsValue p.text) (gap : Blanks) {depth : Nat} (hdepth : levels + 1 ≤ depth)
    (htwo : 2 ≤ depth) {pre : List Char} (hpre : Blank pre) :
    Reads (listOf depth (Codec.read : Nat → Reader α)) (pre ++ listChars items gap)
      (items.mapM fun p => own p.text) := by
  refine reads_settled hpre rfl ?_
  intro rest _
  simp only [enter, if_neg (show ¬ depth ≤ 1 by omega)]
  rw [List.cons_append, advance_bind, List.append_assoc, List.append_assoc]
  exact elements_listed hv
    (fun p hp => h.reads p.text (hv p hp) (depth - 1) (by omega) [] blank_nil) gap rest

theorem list_steady [Codec α] {levels : Nat} (hone : 1 ≤ levels) (hlevels : levels < depthLimit)
    (h : Steady α levels) : Steady (List α) (levels + 1) := by
  refine steady_of_reads hlevels ?_
  intro v hv
  cases hv with
  | list hv =>
    exact ⟨_, fun _ hdepth _ hpre => listOf_listed h hv _ hdepth (by omega) hpre⟩
  | number hn =>
    obtain ⟨c, tail, rfl, hc⟩ := hn.head
    obtain ⟨_, _, _, _, hlist, _⟩ := ne_of_numeral hc
    refine ⟨none, fun _ _ _ hpre => reads_failed hpre (isSpace_numeral hc) ?_⟩
    simp only
    exact mismatch_fails _
  | _ => exact ⟨none, fun _ _ _ hpre => reads_failed hpre rfl (mismatch_fails _)⟩

/-! ## Objects -/

/-- The key of a member, if it is a string. -/
def Member.name? (m : Member) : Option String := unquoted? m.key.text

namespace Reader

theorem nextKey_append {pre : List Char} (hpre : Blank pre) (first : Bool) (s : List Char) :
    nextKey first (pre ++ s) = nextKey first s :=
  bind_congr_left (bind_congr_left (peek_append hpre s) _) _

theorem hasKey_quote {pre : List Char} (hpre : Blank pre) (first : Bool) (s : List Char) :
    hasKey first ((if first then [] else [',']) ++ (pre ++ '"' :: s)) = .ok true ('"' :: s) := by
  cases first with
  | true => exact peek_bind hpre rfl s _
  | false =>
    rw [if_neg Bool.false_ne_true, List.singleton_append, hasKey, peek_cons rfl]
    simp only [Bool.false_eq_true, if_false]
    rw [advance_bind, peek_bind hpre rfl]
    rfl

theorem nextKey_member {m : Member} (h : IsQuoted m.key.text) (first : Bool) (s : List Char) :
    Yields (m.name?.map some) (m.key.after ++ ':' :: (m.value.chars ++ s))
      (nextKey first ((if first then [] else [',']) ++ (m.chars ++ s))) := by
  rw [Member.chars]
  simp only [List.append_assoc, List.cons_append]
  rw [nextKey, bind_ok (hasKey_quote m.key.before.2 first _), if_pos rfl, advance_bind]
  exact (unquoted_yields h _).map some

end Reader

/-- The members of an object up to its brace, by induction on the members. -/
theorem membersRest_listed {item : Reader α} {members : List Member}
    (hkeys : ∀ m ∈ members, IsQuoted m.key.text)
    (h : ∀ m ∈ members, ∃ o, ∀ pre, Blank pre → Reads item (pre ++ m.value.text) o)
    (gap : Blanks) :
    ∃ o, ∀ first fuel pre rest, members.length < fuel → Blank pre →
      Yields o ('\x7d' :: rest) (membersRest item fuel first
        (pre ++ (listed first (members.map Member.chars) ++ (gap ++ '\x7d' :: rest)))) := by
  induction members with
  | nil =>
    refine ⟨some [], fun first fuel pre rest hfuel hpre => ?_⟩
    obtain ⟨fuel, rfl⟩ : ∃ k, fuel = k + 1 := ⟨fuel - 1, by omega⟩
    have hend : nextKey first (pre ++ (gap ++ '\x7d' :: rest)) = .ok none ('\x7d' :: rest) :=
      (nextKey_append hpre first _).trans (nextKey_end gap.2 first rest)
    exact yields_some.mpr (bind_ok hend)
  | cons m members ih =>
    obtain ⟨hkey, hkeys⟩ := List.forall_mem_cons.mp hkeys
    obtain ⟨⟨o, ho⟩, h⟩ := List.forall_mem_cons.mp h
    obtain ⟨q, hq⟩ := ih hkeys h
    refine ⟨m.name?.bind fun key => o.bind fun a => q.bind fun rest => some ((key, a) :: rest),
      fun first fuel pre rest hfuel hpre => ?_⟩
    obtain ⟨fuel, rfl⟩ : ∃ k, fuel = k + 1 := ⟨fuel - 1, by omega⟩
    have hlater := listed_ended (members.map Member.chars) gap.2
      (rfl : endsValue '\x7d' = true) rest
    have hvalue := ho m.value.before m.value.before.2 _ (ended_append m.value.after.2 hlater)
    have hrest := hq false fuel m.value.after rest (by simpa using hfuel) m.value.after.2
    rw [List.map_cons, listed]
    simp only [List.append_assoc]
    rw [membersRest, bind_congr_left (nextKey_append hpre first _)]
    refine (nextKey_member hkey first _).bind_map fun key _ => ?_
    dsimp only
    rw [bind_ok (colon_blank m.key.after.2 _), Padded.chars]
    simp only [List.append_assoc] at hvalue ⊢
    exact hvalue.bind fun a _ => hrest.bind fun _ _ => ⟨rfl, rfl⟩

theorem members_listed {item : Reader α} {members : List Member}
    (hkeys : ∀ m ∈ members, IsQuoted m.key.text)
    (h : ∀ m ∈ members, ∃ o, ∀ pre, Blank pre → Reads item (pre ++ m.value.text) o)
    (gap : Blanks) :
    ∃ o, ∀ rest, Yields o rest (Reader.members item
      (listed true (members.map Member.chars) ++ (gap ++ '\x7d' :: rest))) := by
  obtain ⟨o, ho⟩ := membersRest_listed hkeys h gap
  refine ⟨o, fun rest => ?_⟩
  have hlen := length_le_listed (members.map Member.chars)
  rw [List.length_map] at hlen
  refine Yields.closedBy (ho true _ [] rest ?_ blank_nil) (closeObject_blank blank_nil rest)
  simp only [List.length_append, List.length_cons]
  omega

/-! ## Values of any kind -/

/-- Blanks before a value do not count. -/
theorem Reads.value_blank {depth : Nat} {v : List Char} {o : Option Json}
    (h : Reads (value depth) v o) {pre : List Char} (hpre : Blank pre) :
    Reads (value depth) (pre ++ v) o := by
  intro rest hrest
  have hread := h rest hrest
  cases depth with
  | zero => exact hread
  | succ depth =>
    have hskip : value (depth + 1) (pre ++ (v ++ rest)) = value (depth + 1) (v ++ rest) :=
      bind_congr_left (peek_append hpre _) _
    rw [List.append_assoc, hskip]
    exact hread

theorem value_zero (v : List Char) : Reads (value 0) v none :=
  fun rest _ => (fails_next _).yields rest _

section Values

variable (depth : Nat)

theorem value_null : Reads (value (depth + 1)) ['n', 'u', 'l', 'l'] (some .null) :=
  fun _ _ => yields_some.mpr (peek_cons rfl _ _)

theorem value_true : Reads (value (depth + 1)) ['t', 'r', 'u', 'e'] (some (.boolean true)) :=
  fun _ _ => yields_some.mpr (peek_cons rfl _ _)

theorem value_false :
    Reads (value (depth + 1)) ['f', 'a', 'l', 's', 'e'] (some (.boolean false)) :=
  fun _ _ => yields_some.mpr (peek_cons rfl _ _)

theorem value_number {s : List Char} (h : IsNumber s) :
    Reads (value (depth + 1)) s ((numeral.alone s).map Json.number) :=
  value_numeral blank_nil (numeral_steady h) h.head depth

theorem value_quoted {s : List Char} (h : IsQuoted s) :
    Reads (value (depth + 1)) ('"' :: (s ++ ['"'])) ((unquoted? s).map Json.string) := by
  intro rest _
  rw [List.cons_append, List.append_assoc, value, peek_cons rfl]
  exact (unquoted_yields h rest).map Json.string

/-- The elements of a list are one level down, if there is one. -/
theorem value_listed {items : List Padded} {read : Padded → Option Json}
    (hv : ∀ p ∈ items, IsValue p.text) (h : ∀ p ∈ items, Reads (value depth) p.text (read p))
    (gap : Blanks) : Reads (value (depth + 1)) (listChars items gap)
      ((if depth = 0 then none else items.mapM read).map Json.list) := by
  intro rest _
  rw [listChars, List.cons_append, List.append_assoc, List.append_assoc, value, peek_cons rfl]
  simp only [enter]
  split
  case isTrue hzero =>
    rw [if_pos (by omega)]
    exact (fails_next _).yields rest _
  case isFalse hpos =>
    rw [if_neg (by omega), advance_bind]
    exact (elements_listed hv h gap rest).map Json.list

theorem value_members {members : List Member} (hkeys : ∀ m ∈ members, IsQuoted m.key.text)
    (h : ∀ m ∈ members, ∃ o, Reads (value depth) m.value.text o) (gap : Blanks) :
    ∃ o, Reads (value (depth + 1)) (objectChars members gap) (Option.map Json.object o) := by
  have hblank : ∀ m ∈ members, ∃ o, ∀ pre, Blank pre →
      Reads (value depth) (pre ++ m.value.text) o := by
    intro m hm
    obtain ⟨o, ho⟩ := h m hm
    exact ⟨o, fun pre hpre => ho.value_blank hpre⟩
  obtain ⟨o, ho⟩ := members_listed hkeys hblank gap
  refine ⟨if depth = 0 then none else o, fun rest _ => ?_⟩
  rw [objectChars, List.cons_append, List.append_assoc, List.append_assoc, value, peek_cons rfl]
  simp only [enter]
  split
  case isTrue hzero =>
    rw [if_pos (by omega)]
    exact (fails_next _).yields rest _
  case isFalse hpos =>
    rw [if_neg (by omega), advance_bind]
    exact (ho rest).map Json.object

end Values

theorem value_of_succ {v : List Char} (h : ∀ depth, ∃ o, Reads (value (depth + 1)) v o)
    (depth : Nat) : Reads (value depth) v ((value depth).alone v) := by
  have hread : ∃ o, Reads (value depth) v o := by
    cases depth with
    | zero => exact ⟨none, value_zero v⟩
    | succ depth => exact h depth
  obtain ⟨o, ho⟩ := hread
  rw [ho.alone]
  exact ho

theorem value_steady {v : List Char} (hv : IsValue v) (depth : Nat) :
    Reads (value depth) v ((value depth).alone v) := by
  revert depth
  refine value_of_succ ?_
  induction hv with
  | null => exact fun depth => ⟨_, value_null depth⟩
  | true => exact fun depth => ⟨_, value_true depth⟩
  | false => exact fun depth => ⟨_, value_false depth⟩
  | number hn => exact fun depth => ⟨_, value_number depth hn⟩
  | string hs => exact fun depth => ⟨_, value_quoted depth hs⟩
  | list hv ih =>
    intro depth
    exact ⟨_, value_listed depth hv (fun p hp => value_of_succ (ih p hp) depth) _⟩
  | object hkeys _ ih =>
    intro depth
    obtain ⟨o, ho⟩ := value_members depth hkeys
      (fun m hm => ⟨_, value_of_succ (ih m hm) depth⟩) _
    exact ⟨_, ho⟩

end Widgetry.Json

/-! ## Colors -/

namespace Widgetry.Color

open Json Json.Reader

/-- The color of a value, if it is one. -/
def color? (j : Json) : Option Color := (ofJson j).toOption

section Lists

variable {ι : Type} (read : ι → Option Json)

theorem color?_four (r g b a : ι) : (([r, g, b, a].mapM read).map Json.list).bind color? =
    (do return ⟨← (read r).bind single?, ← (read g).bind single?, ← (read b).bind single?,
      ← (read a).bind single?⟩) := by
  simp only [List.mapM_cons, List.mapM_nil]
  cases read r <;> cases read g <;> cases read b <;> cases read a <;> simp [color?, ofJson_list]

theorem length_of_mapM {items : List ι} {js : List Json} (h : items.mapM read = some js) :
    js.length = items.length := by
  induction items generalizing js with
  | nil =>
    cases h
    rfl
  | cons i items ih =>
    simp only [List.mapM_cons, Option.bind_eq_bind, Option.bind_eq_some_iff] at h
    obtain ⟨j, _, js', hjs, hcons⟩ := h
    cases hcons
    rw [List.length_cons, List.length_cons, ih hjs]

/-- No color has another number of channels. -/
theorem color?_other {items : List ι} (h : items.length ≠ 4) :
    ((items.mapM read).map Json.list).bind color? = none := by
  cases hitems : items.mapM read with
  | none => rfl
  | some js =>
    have hlen := length_of_mapM read hitems
    have hform : Form.ofJson? (.list js) = none := by
      unfold Form.ofJson?
      split
      case h_1 heq => cases heq
      case h_2 heq =>
        cases heq
        exact absurd hlen.symm h
      case h_3 => rfl
    rw [Option.map_some, Option.bind_some, color?, ofJson, hform]
    rfl

end Lists

theorem listed_alone {items : List Padded} (hv : ∀ p ∈ items, IsValue p.text) (gap : Blanks)
    (depth : Nat) : (value (depth + 1)).alone (listChars items gap) =
      (if depth = 0 then none else items.mapM fun p => (value depth).alone p.text).map Json.list :=
  (value_listed depth hv (fun p hp => value_steady (hv p hp) depth) gap).alone

theorem members_alone {members : List Member} (hkeys : ∀ m ∈ members, IsQuoted m.key.text)
    (hv : ∀ m ∈ members, IsValue m.value.text) (gap : Blanks) (depth : Nat) :
    ∃ o, (value (depth + 1)).alone (objectChars members gap) = Option.map Json.object o := by
  obtain ⟨o, ho⟩ := value_members depth hkeys (fun m hm => ⟨_, value_steady (hv m hm) depth⟩) gap
  exact ⟨o, ho.alone⟩

/-- A number is read as one at any depth, and nothing else is. -/
theorem single?_alone {v : List Char} (hv : IsValue v) (depth : Nat) :
    ((value (depth + 1)).alone v).bind single? = ((value 1).alone v).bind single? := by
  have hlist (o : Option (List Json)) : (o.map Json.list).bind single? = none := by
    cases o <;> rfl
  have hobject (o : Option (List (String × Json))) : (o.map Json.object).bind single? = none := by
    cases o <;> rfl
  cases hv with
  | null => rw [(value_null depth).alone, (value_null 0).alone]
  | true => rw [(value_true depth).alone, (value_true 0).alone]
  | false => rw [(value_false depth).alone, (value_false 0).alone]
  | number hn => rw [(value_number depth hn).alone, (value_number 0 hn).alone]
  | string hs => rw [(value_quoted depth hs).alone, (value_quoted 0 hs).alone]
  | list hv => rw [listed_alone hv, listed_alone hv, hlist, hlist]
  | @object _ gap hkeys hv =>
    obtain ⟨o, ho⟩ := members_alone hkeys hv gap depth
    obtain ⟨q, hq⟩ := members_alone hkeys hv gap 0
    rw [ho, hq, hobject, hobject]

/-- Two levels are enough to read a color. -/
theorem color?_alone {v : List Char} (hv : IsValue v) (depth : Nat) :
    ((value (depth + 1 + 1)).alone v).bind color? = ((value (1 + 1)).alone v).bind color? := by
  have hobject (o : Option (List (String × Json))) : (o.map Json.object).bind color? = none := by
    cases o <;> rfl
  cases hv with
  | null => rw [(value_null (depth + 1)).alone, (value_null 1).alone]
  | true => rw [(value_true (depth + 1)).alone, (value_true 1).alone]
  | false => rw [(value_false (depth + 1)).alone, (value_false 1).alone]
  | number hn => rw [(value_number (depth + 1) hn).alone, (value_number 1 hn).alone]
  | string hs => rw [(value_quoted (depth + 1) hs).alone, (value_quoted 1 hs).alone]
  | @list items gap hv =>
    rw [listed_alone hv, listed_alone hv, if_neg (Nat.succ_ne_zero depth), if_neg Nat.one_ne_zero]
    by_cases hlen : items.length = 4
    · obtain ⟨r, g, b, a, rfl⟩ : ∃ r g b a, items = [r, g, b, a] := by
        match items, hlen with
        | [r, g, b, a], _ => exact ⟨r, g, b, a, rfl⟩
      simp only [List.forall_mem_cons] at hv
      obtain ⟨hr, hg, hb, ha, _⟩ := hv
      rw [color?_four, color?_four, single?_alone hr depth, single?_alone hg depth,
        single?_alone hb depth, single?_alone ha depth]
    · rw [color?_other _ hlen, color?_other _ hlen]
  | @object _ gap hkeys hv =>
    obtain ⟨o, ho⟩ := members_alone hkeys hv gap (depth + 1)
    obtain ⟨q, hq⟩ := members_alone hkeys hv gap 1
    rw [ho, hq, hobject, hobject]

theorem steady : Steady Color 2 := by
  refine steady_of_reads (by decide) ?_
  intro v hv
  refine ⟨((value (1 + 1)).alone v).bind color?, ?_⟩
  intro depth hdepth pre hpre rest hrest
  obtain ⟨depth, rfl⟩ : ∃ k, depth = k + 1 + 1 := ⟨depth - 2, by omega⟩
  have hread := (value_steady hv (depth + 1 + 1)).value_blank hpre rest hrest
  rw [← color?_alone hv depth]
  refine hread.bind fun j _ => ?_
  rw [color?]
  cases ofJson j with
  | ok c => exact ⟨rfl, rfl⟩
  | error p => exact (fails_later p).yields rest rest

end Widgetry.Color
