import Widgetry.Scene

/-!
# Where a mark is in a stack of rectangles

A rectangle that holds a mark is known twice: by its flag and by its identifier in the pointer.
`Marked` relates the two. It is defined along the stack, so that handing a mark on, adding, editing
and taking out rectangles are each one induction; `Marked.flag_iff` says what it means in terms of
places. Identifiers may repeat.
-/

namespace Widgetry

namespace Rectangle

/-- A rectangle without its flags: what the pointer never changes. -/
def bare (r : Rectangle) : Rectangle := r.copy r.id

/-- Neither hovered nor focused. -/
def Idle (r : Rectangle) : Prop := r.hovered = false ∧ r.focused = false

theorem idle_iff {r : Rectangle} : r.Idle ↔ ∀ m, r.has m = false := by
  constructor
  · rintro ⟨hh, hf⟩ m
    cases m with
    | hover => exact hh
    | focus => exact hf
  · intro h
    exact ⟨h .hover, h .focus⟩

@[simp] theorem put_bare (r : Rectangle) (m : Mark) (on : Bool) : (r.put m on).bare = r.bare := by
  cases m <;> rfl

@[simp] theorem put_has (r : Rectangle) (m : Mark) (on : Bool) : (r.put m on).has m = on := by
  cases m <;> rfl

theorem put_has_ne (r : Rectangle) {m n : Mark} (on : Bool) (h : n ≠ m) :
    (r.put m on).has n = r.has n := by
  cases m <;> cases n <;> first | rfl | exact absurd rfl h

@[simp] theorem mark_bare (r : Rectangle) (m : Mark) (on : Bool) (c : Option Point) :
    (r.mark m on c).1.bare = r.bare := by
  unfold mark
  split
  · rfl
  · exact put_bare r m on

@[simp] theorem mark_id (r : Rectangle) (m : Mark) (on : Bool) (c : Option Point) :
    (r.mark m on c).1.id = r.id := by
  have h := congrArg Rectangle.id (mark_bare r m on c)
  exact h

@[simp] theorem mark_has (r : Rectangle) (m : Mark) (on : Bool) (c : Option Point) :
    (r.mark m on c).1.has m = on := by
  unfold mark
  split
  case isTrue h => exact h
  case isFalse => exact put_has r m on

theorem mark_has_ne (r : Rectangle) {m n : Mark} (on : Bool) (c : Option Point) (h : n ≠ m) :
    (r.mark m on c).1.has n = r.has n := by
  unfold mark
  split
  · rfl
  · exact put_has_ne r on h

theorem mark_signals (r : Rectangle) {m : Mark} {on : Bool} (c : Option Point)
    (h : r.has m = !on) : (r.mark m on c).2 = [r.emit (m.event on) c] := by
  have hne : r.has m ≠ on := by cases on <;> simp [h]
  simp [mark, hne]

end Rectangle

/-- The events that reached rectangles, in order. -/
def events (signals : List Signal) : List Event :=
  signals.filterMap fun
    | .emitted e _ => some e
    | _ => none

@[simp] theorem events_append (a b : List Signal) : events (a ++ b) = events a ++ events b :=
  List.filterMap_append

theorem hasRect_iff {rects : List Rectangle} {id : RectId} :
    hasRect rects id = true ↔ ∃ r ∈ rects, r.id = id := by
  simp [hasRect]

/-- Exactly the first rectangle with the holder's identifier has the mark; without a holder none
has it. A holder is in the stack. -/
def Marked (m : Mark) : Option RectId → List Rectangle → Prop
  | holder, [] => holder = none
  | holder, r :: rest =>
    if holder = some r.id then r.has m = true ∧ Marked m none rest
    else r.has m = false ∧ Marked m holder rest

namespace Marked

variable {m : Mark} {holder : Option RectId} {r : Rectangle} {rects rest : List Rectangle}

theorem cons_self : Marked m (some r.id) (r :: rest) ↔ r.has m = true ∧ Marked m none rest := by
  rw [Marked, if_pos rfl]

theorem cons_ne (h : holder ≠ some r.id) :
    Marked m holder (r :: rest) ↔ r.has m = false ∧ Marked m holder rest := by
  rw [Marked, if_neg h]

theorem none_iff : Marked m none rects ↔ ∀ r ∈ rects, r.has m = false := by
  induction rects with
  | nil => simp [Marked]
  | cons r rest ih =>
    rw [cons_ne (by simp), ih]
    simp

/-- A rectangle with the mark has the holder's identifier. -/
theorem holder_of_flag (h : Marked m holder rects) (hr : r ∈ rects) (hf : r.has m = true) :
    holder = some r.id := by
  induction rects generalizing holder with
  | nil => cases hr
  | cons x rest ih =>
    by_cases hx : holder = some x.id
    · subst hx
      obtain ⟨_, hrest⟩ := cons_self.mp h
      rcases List.mem_cons.mp hr with rfl | hr
      · rfl
      · exact absurd (none_iff.mp hrest r hr) (by simp [hf])
    · obtain ⟨hflag, hrest⟩ := (cons_ne hx).mp h
      rcases List.mem_cons.mp hr with rfl | hr
      · exact absurd hf (by simp [hflag])
      · exact ih hrest hr

/-- The holder is in the stack. -/
theorem present {id : RectId} (h : Marked m (some id) rects) : hasRect rects id = true := by
  induction rects with
  | nil => cases h
  | cons x rest ih =>
    rw [hasRect_iff]
    by_cases hx : x.id = id
    · exact ⟨x, List.mem_cons_self, hx⟩
    · have hne : some id ≠ some x.id := fun he => hx (Option.some.inj he).symm
      obtain ⟨r, hr, hid⟩ := hasRect_iff.mp (ih ((cons_ne hne).mp h).2)
      exact ⟨r, List.mem_cons_of_mem x hr, hid⟩

/-- The rectangle at a place has the mark exactly if it has the holder's identifier and no
rectangle below it does. -/
theorem flag_iff (h : Marked m holder rects) (i : Nat) (hi : i < rects.length) :
    rects[i].has m = true ↔
      holder = some rects[i].id ∧ ∀ (j : Nat) (hj : j < i), rects[j].id ≠ rects[i].id := by
  induction rects generalizing holder i with
  | nil => exact absurd hi (by simp)
  | cons x rest ih =>
    by_cases hx : holder = some x.id
    · subst hx
      obtain ⟨hflag, hrest⟩ := cons_self.mp h
      cases i with
      | zero => simp [hflag]
      | succ i =>
        -- The head holds the mark, so nothing above it has it.
        have hi' : i < rest.length := by simpa using hi
        have hbare : rest[i].has m = false := none_iff.mp hrest _ (List.getElem_mem hi')
        simp only [List.getElem_cons_succ, hbare, Bool.false_eq_true, false_iff, not_and]
        intro hid hfirst
        exact hfirst 0 (Nat.succ_pos i) (Option.some.inj hid)
    · obtain ⟨hflag, hrest⟩ := (cons_ne hx).mp h
      cases i with
      | zero => simp [hflag, hx]
      | succ i =>
        have hi' : i < rest.length := by simpa using hi
        rw [List.getElem_cons_succ, ih hrest i hi']
        constructor
        · rintro ⟨hid, hfirst⟩
          refine ⟨hid, ?_⟩
          intro j hj
          cases j with
          | zero => exact fun he => hx (by rw [hid, ← he]; rfl)
          | succ j => exact hfirst j (by omega)
        · rintro ⟨hid, hfirst⟩
          exact ⟨hid, fun j hj => hfirst (j + 1) (by omega)⟩

theorem count_le_one (h : Marked m holder rects) : rects.countP (·.has m) ≤ 1 := by
  induction rects generalizing holder with
  | nil => simp
  | cons x rest ih =>
    by_cases hx : holder = some x.id
    · subst hx
      obtain ⟨hflag, hrest⟩ := cons_self.mp h
      have hzero : rest.countP (·.has m) = 0 :=
        List.countP_eq_zero.mpr fun r hr => by simp [none_iff.mp hrest r hr]
      simp [hflag, hzero]
    · obtain ⟨hflag, hrest⟩ := (cons_ne hx).mp h
      rw [List.countP_cons_of_neg (by simp [hflag])]
      exact ih hrest

/-- What a mark's place depends on: identifiers and flags. -/
def badge (m : Mark) (r : Rectangle) : RectId × Bool := (r.id, r.has m)

/-- The rest of a stack may be replaced by any that serves the same holder, or nobody if the head
holds the mark. -/
theorem cons_mono {x y : Rectangle} {rest' : List Rectangle} (h : Marked m holder (x :: rest))
    (hb : badge m y = badge m x)
    (hrest : ∀ k, k = none ∨ k = holder → Marked m k rest → Marked m k rest') :
    Marked m holder (y :: rest') := by
  obtain ⟨hid, hflag⟩ := Prod.mk.inj hb
  rw [Marked] at h ⊢
  rw [hid, hflag]
  split at h
  case isTrue hx =>
    rw [if_pos hx]
    exact ⟨h.1, hrest none (.inl rfl) h.2⟩
  case isFalse hx =>
    rw [if_neg hx]
    exact ⟨h.1, hrest holder (.inr rfl) h.2⟩

theorem of_badges {rects' : List Rectangle} (h : Marked m holder rects)
    (hb : rects'.map (badge m) = rects.map (badge m)) : Marked m holder rects' := by
  induction rects generalizing holder rects' with
  | nil =>
    rw [List.map_nil, List.map_eq_nil_iff] at hb
    rw [hb]
    exact h
  | cons x rest ih =>
    cases rects' with
    | nil => simp at hb
    | cons y rest' =>
      rw [List.map_cons, List.map_cons, List.cons.injEq] at hb
      obtain ⟨hhead, hrest⟩ := hb
      exact h.cons_mono hhead fun _ _ hk => ih hk hrest

/-- A rectangle without the mark may be put on top. -/
theorem push (h : Marked m holder rects) (hr : r.has m = false) :
    Marked m holder (rects ++ [r]) := by
  induction rects generalizing holder with
  | nil =>
    cases h
    rw [List.nil_append, none_iff]
    simpa using hr
  | cons x rest ih =>
    rw [List.cons_append]
    exact h.cons_mono rfl fun _ _ hk => ih hk

/-- The first rectangle with an identifier may be taken out unless it is the holder's. -/
theorem erase {id : RectId} (h : Marked m holder rects) (hid : holder ≠ some id) :
    Marked m holder (rects.eraseP (·.id = id)) := by
  induction rects generalizing holder with
  | nil => exact h
  | cons x rest ih =>
    by_cases hx : x.id = id
    · subst hx
      rw [List.eraseP_cons_of_pos (by simp)]
      exact ((cons_ne hid).mp h).2
    · rw [List.eraseP_cons_of_neg (by simpa using hx)]
      refine h.cons_mono rfl ?_
      rintro k (rfl | rfl) hk
      · exact ih hk (by simp)
      · exact ih hk hid

end Marked

section MarkRect

variable {m : Mark} {on : Bool} {c : Option Point} {id : RectId} {r : Rectangle}
  {rects rest : List Rectangle}

theorem markRect_cons_self :
    markRect m on c r.id (r :: rest) = ((r.mark m on c).1 :: rest, (r.mark m on c).2) := by
  rw [markRect, if_pos rfl]

theorem markRect_cons_ne (h : r.id ≠ id) :
    markRect m on c id (r :: rest) =
      (r :: (markRect m on c id rest).1, (markRect m on c id rest).2) := by
  rw [markRect, if_neg h]

/-- Handing out a mark changes flags only. -/
@[simp] theorem markRect_bare (m : Mark) (on : Bool) (c : Option Point) (id : RectId)
    (rects : List Rectangle) :
    (markRect m on c id rects).1.map Rectangle.bare = rects.map Rectangle.bare := by
  induction rects with
  | nil => rfl
  | cons x rest ih =>
    by_cases hx : x.id = id
    · subst hx
      rw [markRect_cons_self]
      simp
    · rw [markRect_cons_ne hx]
      simp [ih]

theorem markRect_kind {e : Event} (he : e ∈ events (markRect m on c id rects).2) :
    e.kind = m.event on := by
  induction rects with
  | nil => cases he
  | cons x rest ih =>
    by_cases hx : x.id = id
    · subst hx
      rw [markRect_cons_self, Rectangle.mark] at he
      split at he
      · cases he
      · rw [List.mem_singleton.mp he]
    · rw [markRect_cons_ne hx] at he
      exact ih he

/-- The other mark stays where it is. -/
theorem markRect_badges {n : Mark} (h : n ≠ m) (on : Bool) (c : Option Point) (id : RectId)
    (rects : List Rectangle) :
    (markRect m on c id rects).1.map (Marked.badge n) = rects.map (Marked.badge n) := by
  induction rects with
  | nil => rfl
  | cons x rest ih =>
    by_cases hx : x.id = id
    · subst hx
      rw [markRect_cons_self]
      simp [Marked.badge, Rectangle.mark_has_ne x on c h]
    · rw [markRect_cons_ne hx]
      simp [ih]

/-- The holder loses the mark and is told so. -/
theorem markRect_take (h : Marked m (some id) rects) :
    Marked m none (markRect m false c id rects).1 ∧
      events (markRect m false c id rects).2 = [⟨m.event false, id, c⟩] := by
  induction rects with
  | nil => cases h
  | cons x rest ih =>
    by_cases hx : x.id = id
    · subst hx
      obtain ⟨hflag, hrest⟩ := Marked.cons_self.mp h
      rw [markRect_cons_self, Rectangle.mark_signals x c (by simpa using hflag)]
      refine ⟨(Marked.cons_ne (by simp)).mpr ⟨by simp, hrest⟩, rfl⟩
    · have hne : some id ≠ some x.id := fun he => hx (Option.some.inj he).symm
      obtain ⟨hflag, hrest⟩ := (Marked.cons_ne hne).mp h
      obtain ⟨hmarked, hevents⟩ := ih hrest
      rw [markRect_cons_ne hx]
      exact ⟨(Marked.cons_ne (by simp)).mpr ⟨hflag, hmarked⟩, hevents⟩

/-- A mark that nobody holds can be given to any rectangle of the stack, who is told so. -/
theorem markRect_give (h : Marked m none rects) (hid : hasRect rects id = true) :
    Marked m (some id) (markRect m true c id rects).1 ∧
      events (markRect m true c id rects).2 = [⟨m.event true, id, c⟩] := by
  induction rects with
  | nil => cases hid
  | cons x rest ih =>
    obtain ⟨hflag, hrest⟩ := (Marked.cons_ne (by simp)).mp h
    by_cases hx : x.id = id
    · subst hx
      rw [markRect_cons_self, Rectangle.mark_signals x c (by simpa using hflag)]
      have hself : Marked m (some (x.mark m true c).1.id) ((x.mark m true c).1 :: rest) :=
        Marked.cons_self.mpr ⟨by simp, hrest⟩
      rw [Rectangle.mark_id] at hself
      exact ⟨hself, rfl⟩
    · have hne : some id ≠ some x.id := fun he => hx (Option.some.inj he).symm
      have hin : hasRect rest id = true := by simpa [hasRect, hx] using hid
      obtain ⟨hmarked, hevents⟩ := ih hrest hin
      rw [markRect_cons_ne hx]
      exact ⟨(Marked.cons_ne hne).mpr ⟨hflag, hmarked⟩, hevents⟩

end MarkRect

end Widgetry
