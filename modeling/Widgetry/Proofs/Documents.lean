import Widgetry.Proofs.Numerals
import Widgetry.Proofs.Quotes

/-!
# Reading laid out documents

A list or an object is written with one element or member per line. What a reader makes of it
follows from what the readers of its parts make of theirs: `listOf_reads` for lists,
`Record.read_reads` for records, whose members fill a draft one after the other.
-/

namespace Widgetry.Json

open Document (newline prettyItems prettyMembers)

variable {α ι σ : Type}

/-- What a reader makes of a document, at any level and with blanks before it. -/
def ReadsDocument (r : Reader α) (d : Document) (o : Option α) : Prop :=
  ∀ level pre, Blank pre → Reads r (pre ++ d.pretty level) o

/-- The text of a document starts with what cannot be taken for the end of a list. -/
def Solid (d : Document) : Prop :=
  ∀ level, ∃ c tail, d.pretty level = c :: tail ∧ Reader.isSpace c = false ∧ c ≠ ']'

theorem ended_blank {pre : List Char} (hpre : Blank pre) {c : Char} (hc : endsValue c = true)
    (s : List Char) : Ended (pre ++ c :: s) := by
  cases pre with
  | nil => exact ended_cons hc s
  | cons b pre =>
    have hb : endsValue b = true := by simp [endsValue, hpre b List.mem_cons_self]
    exact ended_cons hb _

theorem solid_null : Solid .null := fun _ => ⟨'n', _, rfl, rfl, by decide⟩

theorem solid_object (members : List (String × Document)) : Solid (.object members) := by
  intro level
  cases members with
  | nil => exact ⟨'\x7b', _, rfl, rfl, by decide⟩
  | cons m rest =>
    rw [Document.pretty]
    exact ⟨'\x7b', _, rfl, rfl, by decide⟩

/-! ## Lists -/

namespace Reader

theorem hasElement_first {pre : List Char} (hpre : Blank pre) {c : Char} (hc : isSpace c = false)
    (hend : c ≠ ']') (s : List Char) : hasElement true (pre ++ c :: s) = .ok true (c :: s) := by
  rw [hasElement, peek_bind hpre hc]
  by_cases hcomma : c = ','
  · subst hcomma
    rfl
  · simp only [if_true]
    rfl

theorem hasElement_further {pre : List Char} (hpre : Blank pre) {c : Char}
    (hc : isSpace c = false) (hend : c ≠ ']') (s : List Char) :
    hasElement false (',' :: (pre ++ c :: s)) = .ok true (c :: s) := by
  rw [hasElement, peek_cons rfl]
  simp only [Bool.false_eq_true, if_false]
  rw [advance_bind, peek_bind hpre hc]
  simp only
  rfl

theorem hasElement_end {pre : List Char} (hpre : Blank pre) (first : Bool) (s : List Char) :
    hasElement first (pre ++ ']' :: s) = .ok false (']' :: s) := by
  rw [hasElement, peek_bind hpre rfl]
  rfl

end Reader

section Lists

variable {item : Reader α} {write : ι → Document} {read : ι → Option α}

theorem length_le_prettyItems (level : Nat) (items : List Document) :
    items.length ≤ (prettyItems level items).length := by
  induction items with
  | nil => exact Nat.le_refl 0
  | cons d rest ih =>
    rw [prettyItems, List.length_cons, List.length_cons, List.length_append]
    omega

theorem prettyItems_ended {pre : List Char} (hpre : Blank pre) (level : Nat)
    (items : List Document) (rest : List Char) :
    Ended (prettyItems level items ++ (pre ++ ']' :: rest)) := by
  cases items with
  | nil => exact ended_blank hpre rfl rest
  | cons d items =>
    rw [prettyItems]
    exact ended_cons rfl _

/-- Once the reader stands before an element, it reads that one and goes on. -/
theorem elementsRest_step {fuel : Nat} {first : Bool} {s s' left rest : List Char} {o : Option α}
    {q : Option (List α)} (hhas : Reader.hasElement first s = .ok true s')
    (hitem : Yields o left (item s'))
    (hrest : Yields q rest (Reader.elementsRest item fuel false left)) :
    Yields (do return (← o) :: (← q)) rest (Reader.elementsRest item (fuel + 1) first s) := by
  rw [Reader.elementsRest, bind_ok hhas]
  exact hitem.bind fun a _ => hrest.bind fun as _ => ⟨rfl, rfl⟩

theorem elementsRest_further {items : List ι}
    (h : ∀ i ∈ items, Solid (write i) ∧ ReadsDocument item (write i) (read i)) (level : Nat)
    {fuel : Nat} (hfuel : items.length < fuel) {pre : List Char} (hpre : Blank pre)
    (rest : List Char) :
    Yields (items.mapM read) (']' :: rest) (Reader.elementsRest item fuel false
      (prettyItems level (items.map write) ++ (pre ++ ']' :: rest))) := by
  induction items generalizing fuel with
  | nil =>
    obtain ⟨fuel, rfl⟩ : ∃ k, fuel = k + 1 := ⟨fuel - 1, by omega⟩
    rw [List.map_nil, prettyItems, List.nil_append, Reader.elementsRest,
      bind_ok (Reader.hasElement_end hpre false rest)]
    exact ⟨rfl, rfl⟩
  | cons i items ih =>
    obtain ⟨fuel, rfl⟩ : ∃ k, fuel = k + 1 := ⟨fuel - 1, by omega⟩
    obtain ⟨hsolid, hread⟩ := h i List.mem_cons_self
    obtain ⟨c, tail, htext, hc, hend⟩ := hsolid level
    have hitem := hread level [] blank_nil _ (prettyItems_ended hpre level (items.map write) rest)
    have hrest := ih (fun j hj => h j (List.mem_cons_of_mem i hj))
      (by simpa using hfuel)
    rw [List.nil_append, htext, List.cons_append] at hitem
    rw [List.map_cons, prettyItems, htext, List.mapM_cons]
    simp only [List.cons_append, List.append_assoc]
    exact elementsRest_step (Reader.hasElement_further (blank_newline level) hc hend _) hitem hrest

theorem elements_closed {o : Option (List α)} {s rest : List Char}
    (h : Yields o (']' :: rest) (Reader.elementsRest item (s.length + 1) true s)) :
    Yields o rest (Reader.elements item s) :=
  Yields.closedBy h (Reader.closeList_blank blank_nil rest)

/-- The elements of a laid out list, from its opening bracket on. -/
theorem elements_reads {items : List ι}
    (h : ∀ i ∈ items, Solid (write i) ∧ ReadsDocument item (write i) (read i)) (level : Nat) :
    ∃ body, (Document.list (items.map write)).pretty level = '[' :: body ∧
      ∀ rest, Yields (items.mapM read) rest (Reader.elements item (body ++ rest)) := by
  cases items with
  | nil =>
    refine ⟨[']'], rfl, fun rest => elements_closed ?_⟩
    have hend : Reader.hasElement true ([']'] ++ rest) = .ok false (']' :: rest) :=
      Reader.hasElement_end blank_nil true rest
    rw [Reader.elementsRest, bind_ok hend]
    exact ⟨rfl, rfl⟩
  | cons i items =>
    refine ⟨_, by rw [List.map_cons, Document.pretty], fun rest => elements_closed ?_⟩
    obtain ⟨hsolid, hread⟩ := h i List.mem_cons_self
    obtain ⟨c, tail, htext, hc, hend⟩ := hsolid (level + 1)
    have hclose := blank_newline level
    have hitem := hread (level + 1) [] blank_nil _
      (prettyItems_ended hclose (level + 1) (items.map write) rest)
    have hlen := length_le_prettyItems (level + 1) (items.map write)
    rw [List.nil_append, htext, List.cons_append] at hitem
    rw [htext, List.mapM_cons]
    simp only [List.cons_append, List.append_assoc, List.nil_append]
    refine elementsRest_step (Reader.hasElement_first (blank_newline (level + 1)) hc hend _) hitem
      (elementsRest_further (fun j hj => h j (List.mem_cons_of_mem i hj)) (level + 1) ?_ hclose
        rest)
    simp only [List.length_append, List.length_cons, List.length_map] at hlen ⊢
    omega

theorem listOf_reads {item : Nat → Reader α} {depth : Nat} (hdepth : 2 ≤ depth) {items : List ι}
    (h : ∀ i ∈ items, Solid (write i) ∧ ReadsDocument (item (depth - 1)) (write i) (read i)) :
    ReadsDocument (Reader.listOf depth item) (.list (items.map write)) (items.mapM read) := by
  intro level pre hpre rest _
  obtain ⟨body, htext, hbody⟩ := elements_reads h level
  apply Yields.settled
  rw [htext, List.append_assoc, List.cons_append, Reader.peek_bind hpre rfl]
  simp only [Reader.enter, if_neg (show ¬ depth ≤ 1 by omega)]
  exact hbody rest

theorem value_list {depth : Nat} {read : ι → Option Json} (hdepth : 1 ≤ depth) {items : List ι}
    (h : ∀ i ∈ items, Solid (write i) ∧ ReadsDocument (Reader.value depth) (write i) (read i)) :
    ReadsDocument (Reader.value (depth + 1)) (.list (items.map write))
      ((items.mapM read).map Json.list) := by
  intro level pre hpre rest _
  obtain ⟨body, htext, hbody⟩ := elements_reads h level
  rw [htext, List.append_assoc, List.cons_append, Reader.value, Reader.peek_bind hpre rfl]
  simp only [Reader.enter, if_neg (show ¬ depth + 1 ≤ 1 by omega)]
  exact (hbody rest).map Json.list

end Lists

/-! ## Records -/

/-- What comes of a draft when the given members are read into it: either a record, or a failure
on the way or at the end. -/
inductive Record.Finishes (r : Record σ α) (depth : Nat) :
    σ → List (String × Document) → Option α → Prop
  | complete (draft : σ) : Finishes r depth draft [] (r.complete draft).toOption
  | member {β : Type} {draft : σ} {key : String} {d : Document} {f : Field σ} {o : Option β}
      {set : β → σ} {members : List (String × Document)} {q : β → Option α}
      (hfield : r.field? key = some f) (hnew : f.given draft = false)
      (hread : ReadsDocument (f.read depth draft) d (o.map set))
      (hrest : ∀ v, o = some v → Finishes r depth (set v) members (q v)) :
      Finishes r depth draft ((key, d) :: members) (o.bind q)

section Records

variable {r : Record σ α} {depth : Nat}

theorem Reader.colon_cons (s : List Char) : Reader.colon (':' :: s) = .ok () s := by
  rw [Reader.colon, Reader.peek_cons rfl]
  rfl

theorem length_le_prettyMembers (level : Nat) (members : List (String × Document)) :
    members.length ≤ (prettyMembers level members).length := by
  induction members with
  | nil => exact Nat.le_refl 0
  | cons m rest ih =>
    rw [prettyMembers, List.length_cons, List.length_cons, List.length_append]
    omega

theorem prettyMembers_ended {pre : List Char} (hpre : Blank pre) (level : Nat)
    (members : List (String × Document)) (rest : List Char) :
    Ended (prettyMembers level members ++ (pre ++ '\x7d' :: rest)) := by
  cases members with
  | nil => exact ended_blank hpre rfl rest
  | cons m members =>
    rw [prettyMembers]
    exact ended_cons rfl _

/-- One member is read into the draft, and the others into what comes of it. -/
theorem Record.membersInto_step (r : Record σ α) (depth fuel : Nat) {draft : σ} {key : String}
    {f : Field σ} {first : Bool} {s t : List Char}
    (hkey : Reader.nextKey first s = .ok (some key) (':' :: t))
    (hfield : r.field? key = some f) (hnew : f.given draft = false) :
    r.membersInto depth (fuel + 1) first draft s =
      (do r.membersInto depth fuel false (← f.read depth draft) : Reader σ) t := by
  rw [Record.membersInto, bind_ok hkey]
  simp only [hfield, hnew, Bool.false_eq_true, if_false]
  rw [bind_ok (Reader.colon_cons t)]

theorem Record.finish_yields (r : Record σ α) (draft : σ) (s : List Char) :
    Yields (r.complete draft).toOption s (r.finish draft s) := by
  rw [Record.finish]
  cases r.complete draft with
  | ok a => exact ⟨rfl, rfl⟩
  | error name => exact yields_none.mpr ⟨_, _, rfl⟩

/-- The members of an object as they follow a brace (`first`) or each other. -/
def membersAfter (level : Nat) (first : Bool) : List (String × Document) → List Char
  | [] => []
  | (key, d) :: rest =>
    (if first then [] else [',']) ++ (newline level ++ (writtenString key ++ (':' :: (' ' ::
      (d.pretty level ++ prettyMembers level rest)))))

theorem membersAfter_false (level : Nat) (members : List (String × Document)) :
    membersAfter level false members = prettyMembers level members := by
  cases members with
  | nil => rfl
  | cons m rest =>
    rw [prettyMembers]
    simp [membersAfter]

theorem nextKey_membersAfter (level : Nat) (first : Bool) (key : String) (rest : List Char) :
    Reader.nextKey first ((if first then [] else [',']) ++ (newline level ++
      (writtenString key ++ rest))) = .ok (some key) rest := by
  cases first with
  | true => exact nextKey_first (blank_newline level) key rest
  | false => exact nextKey_further (blank_newline level) key rest

theorem Record.Finishes.reads {draft : σ} {members : List (String × Document)} {o : Option α}
    (h : r.Finishes depth draft members o) (level : Nat) (first : Bool) {fuel : Nat}
    (hfuel : members.length < fuel) {pre : List Char} (hpre : Blank pre) (rest : List Char) :
    Yields o ('\x7d' :: rest) ((do r.finish (← r.membersInto depth fuel first draft) : Reader α)
      (membersAfter level first members ++ (pre ++ '\x7d' :: rest))) := by
  induction h generalizing fuel first with
  | complete draft =>
    obtain ⟨fuel, rfl⟩ : ∃ k, fuel = k + 1 := ⟨fuel - 1, by omega⟩
    have hend : r.membersInto depth (fuel + 1) first draft (pre ++ '\x7d' :: rest) =
        .ok draft ('\x7d' :: rest) := by
      rw [Record.membersInto, bind_ok (nextKey_end hpre first rest)]
      rfl
    rw [membersAfter, List.nil_append, bind_ok hend]
    exact r.finish_yields draft _
  | @member _ draft key d f o set members q hfield hnew hread hrest ih =>
    obtain ⟨fuel, rfl⟩ : ∃ k, fuel = k + 1 := ⟨fuel - 1, by omega⟩
    have hvalue := hread level [' '] blank_space _ (prettyMembers_ended hpre level members rest)
    have hkey := nextKey_membersAfter level first key
      (':' :: (' ' :: (d.pretty level ++ (prettyMembers level members ++ (pre ++ '\x7d' :: rest)))))
    have hstep := bind_congr_left
      (r.membersInto_step depth fuel hkey hfield hnew) r.finish
    simp only [membersAfter, List.append_assoc, List.cons_append]
    rw [hstep, bind_assoc]
    refine hvalue.bind_map fun v hv => ?_
    rw [← membersAfter_false]
    exact ih v hv false (by simpa using hfuel)

theorem Record.members_closed {o : Option α} {s rest : List Char}
    (h : Yields o ('\x7d' :: rest)
      ((do r.finish (← r.membersInto depth (s.length + 1) true r.blank) : Reader α) s)) :
    Yields o rest (Reader.closedBy (do
      r.finish (← r.membersInto depth (← Reader.fuel) true r.blank)) Reader.closeObject s) :=
  Yields.closedBy h (Reader.closeObject_blank blank_nil rest)

/-- What a record reads from an object is what comes of its blank draft. -/
theorem Record.read_reads {members : List (String × Document)} {o : Option α} (hdepth : 2 ≤ depth)
    (h : r.Finishes (depth - 1) r.blank members o) :
    ReadsDocument (r.read depth) (.object members) o := by
  intro level pre hpre rest _
  obtain ⟨gap, hgap, htext⟩ : ∃ gap, Blank gap ∧ (Document.object members).pretty level =
      '\x7b' :: (membersAfter (level + 1) true members ++ (gap ++ ['\x7d'])) := by
    cases members with
    | nil => exact ⟨[], blank_nil, rfl⟩
    | cons m members =>
      refine ⟨newline level, blank_newline level, ?_⟩
      rw [Document.pretty]
      simp [membersAfter]
  have hlen : members.length ≤ (membersAfter (level + 1) true members).length + 1 := by
    cases members with
    | nil => exact Nat.zero_le _
    | cons m members =>
      have hrest := length_le_prettyMembers (level + 1) members
      simp only [membersAfter, List.length_append, List.length_cons]
      omega
  apply Yields.settled
  rw [htext, List.append_assoc, List.cons_append, Reader.peek_bind hpre rfl]
  simp only [Reader.enter, if_neg (show ¬ depth ≤ 1 by omega), List.append_assoc]
  rw [Reader.advance_bind]
  refine Record.members_closed (h.reads (level + 1) true ?_ hgap rest)
  simp only [List.length_append, List.length_cons]
  omega

end Records

end Widgetry.Json
