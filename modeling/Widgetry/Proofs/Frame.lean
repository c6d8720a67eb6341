import Widgetry.Proofs.Marked

/-!
# What operations leave alone

An operation on a mark touches that mark only: the other mark, the cursor, the pressed rectangle
and everything of the rectangles but their flags stay as they are. `Stage.Moves` says so for any
stage, coherent or not.
-/

namespace Widgetry

namespace Pointer

@[simp] theorem holder_setHolder (p : Pointer) (m : Mark) (target : Option RectId) :
    (p.setHolder m target).holder m = target := by
  cases m <;> rfl

theorem holder_setHolder_ne (p : Pointer) {m n : Mark} (target : Option RectId) (h : n ≠ m) :
    (p.setHolder m target).holder n = p.holder n := by
  cases m <;> cases n <;> first | rfl | exact absurd rfl h

@[simp] theorem setHolder_self (p : Pointer) (m : Mark) : p.setHolder m (p.holder m) = p := by
  cases m <;> rfl

@[simp] theorem setHolder_cursor (p : Pointer) (m : Mark) (target : Option RectId) :
    (p.setHolder m target).cursor = p.cursor := by
  cases m <;> rfl

@[simp] theorem setHolder_pressedOn (p : Pointer) (m : Mark) (target : Option RectId) :
    (p.setHolder m target).pressedOn = p.pressedOn := by
  cases m <;> rfl

end Pointer

/-- Who has an identifier does not depend on flags. -/
theorem hasRect_of_bare {rects rects' : List Rectangle}
    (h : rects'.map Rectangle.bare = rects.map Rectangle.bare) (id : RectId) :
    hasRect rects' id = hasRect rects id := by
  have hbare (l : List Rectangle) : hasRect (l.map Rectangle.bare) id = hasRect l id := by
    rw [hasRect, List.any_map]
    rfl
  rw [← hbare rects', h, hbare rects]

/-- Nor does what is on top at a point. -/
theorem topmostAt_of_bare {rects rects' : List Rectangle}
    (h : rects'.map Rectangle.bare = rects.map Rectangle.bare) (p : Point) :
    topmostAt rects' p = topmostAt rects p := by
  have hbare (l : List Rectangle) : topmostAt (l.map Rectangle.bare) p = topmostAt l p := by
    rw [topmostAt, ← List.map_reverse, List.find?_map, Option.map_map]
    rfl
  rw [← hbare rects', h, hbare rects]

/-- Nor does the place of the first rectangle with an identifier. -/
theorem place_of_bare {rects rects' : List Rectangle}
    (h : rects'.map Rectangle.bare = rects.map Rectangle.bare) (id : RectId) :
    rects'.findIdx? (·.id = id) = rects.findIdx? (·.id = id) := by
  have hbare (l : List Rectangle) :
      (l.map Rectangle.bare).findIdx? (·.id = id) = l.findIdx? (·.id = id) := by
    rw [List.findIdx?_map]
    rfl
  rw [← hbare rects', h, hbare rects]

theorem markHolder_bare (m : Mark) (on : Bool) (c : Option Point) (holder : Option RectId)
    (rects : List Rectangle) :
    (markHolder m on c holder rects).1.map Rectangle.bare = rects.map Rectangle.bare := by
  cases holder with
  | none => rfl
  | some id => exact markRect_bare m on c id rects

theorem markHolder_kind {m : Mark} {on : Bool} {c : Option Point} {holder : Option RectId}
    {rects : List Rectangle} {e : Event} (he : e ∈ events (markHolder m on c holder rects).2) :
    e.kind = m.event on := by
  cases holder with
  | none => cases he
  | some id => exact markRect_kind he

namespace Stage

variable {s : Stage} {m : Mark} {target : Option RectId} {id : RectId}

/-- The outcome differs from `s` in who holds a mark at most, and its events are gains and losses
of that mark. -/
structure Moves (m : Mark) (s : Stage) {α : Type} (o : Outcome Stage α) : Prop where
  pointer : ∃ holder, o.state.pointer = s.pointer.setHolder m holder
  bare : o.state.rects.map Rectangle.bare = s.rects.map Rectangle.bare
  kind : ∀ e ∈ events o.signals, ∃ on, e.kind = m.event on

namespace Moves

variable {α : Type} {o : Outcome Stage α}

theorem cursor (h : Moves m s o) : o.state.pointer.cursor = s.pointer.cursor := by
  obtain ⟨holder, hp⟩ := h.pointer
  rw [hp, Pointer.setHolder_cursor]

theorem pressedOn (h : Moves m s o) : o.state.pointer.pressedOn = s.pointer.pressedOn := by
  obtain ⟨holder, hp⟩ := h.pointer
  rw [hp, Pointer.setHolder_pressedOn]

theorem holder_ne (h : Moves m s o) {n : Mark} (hn : n ≠ m) :
    o.state.pointer.holder n = s.pointer.holder n := by
  obtain ⟨holder, hp⟩ := h.pointer
  rw [hp, Pointer.holder_setHolder_ne _ _ hn]

end Moves

theorem refuse_moves (s : Stage) (m : Mark) : Moves m s s.refuse := by
  refine ⟨⟨s.pointer.holder m, ?_⟩, rfl, ?_⟩
  · rw [Pointer.setHolder_self]
    rfl
  · intro e he
    cases he

theorem transfer_self (s : Stage) (m : Mark) : s.transfer m (s.pointer.holder m) = s.refuse := by
  rw [transfer, if_pos rfl]

theorem transfer_of_ne (h : target ≠ s.pointer.holder m) :
    s.transfer m target =
      let lost := markHolder m false s.pointer.cursor (s.pointer.holder m) s.rects
      let gained := markHolder m true s.pointer.cursor target lost.1
      ⟨⟨gained.1, s.pointer.setHolder m target⟩, lost.2 ++ gained.2 ++ [.moved m target],
        true⟩ := by
  rw [transfer, if_neg h]

theorem transfer_answer_iff :
    (s.transfer m target).answer = true ↔ target ≠ s.pointer.holder m := by
  by_cases h : target = s.pointer.holder m
  · subst h
    rw [transfer_self]
    simp [refuse]
  · simp [transfer_of_ne h, h]

/-- A mark that stays where it is leaves everything as it is. -/
theorem transfer_refused (h : (s.transfer m target).answer = false) :
    s.transfer m target = s.refuse := by
  have hnot : ¬ target ≠ s.pointer.holder m := by
    rw [← transfer_answer_iff, h]
    exact Bool.false_ne_true
  rw [Decidable.not_not.mp hnot, transfer_self]

@[simp] theorem transfer_pointer (s : Stage) (m : Mark) (target : Option RectId) :
    (s.transfer m target).state.pointer = s.pointer.setHolder m target := by
  by_cases h : target = s.pointer.holder m
  · subst h
    rw [transfer_self, Pointer.setHolder_self]
    rfl
  · rw [transfer_of_ne h]

theorem transfer_moves (s : Stage) (m : Mark) (target : Option RectId) :
    Moves m s (s.transfer m target) := by
  by_cases h : target = s.pointer.holder m
  · subst h
    rw [transfer_self]
    exact s.refuse_moves m
  · refine ⟨⟨target, s.transfer_pointer m target⟩, ?_, ?_⟩
    · rw [transfer_of_ne h]
      exact (markHolder_bare ..).trans (markHolder_bare ..)
    · intro e he
      rw [transfer_of_ne h] at he
      simp only [events_append, List.mem_append] at he
      rcases he with (he | he) | he
      · exact ⟨false, markHolder_kind he⟩
      · exact ⟨true, markHolder_kind he⟩
      · cases he

theorem refresh_moves (s : Stage) : Moves .hover s s.refresh := s.transfer_moves .hover _

theorem mouseIn_moves (s : Stage) (id : RectId) : Moves .hover s (s.mouseIn id) := by
  unfold mouseIn
  split
  · exact s.transfer_moves .hover _
  · exact s.refuse_moves .hover

theorem mouseOut_moves (s : Stage) (id : RectId) : Moves .hover s (s.mouseOut id) := by
  unfold mouseOut
  split
  · exact s.transfer_moves .hover _
  · exact s.refuse_moves .hover

theorem setFocus_moves (s : Stage) (target : Option RectId) :
    Moves .focus s (s.setFocus target) := by
  unfold setFocus
  split
  · exact s.refuse_moves .focus
  · split
    · exact s.transfer_moves .focus _
    · split
      · exact s.transfer_moves .focus _
      · have hr := s.refuse_moves .focus
        exact ⟨hr.pointer, hr.bare, hr.kind⟩

theorem blur_moves (s : Stage) (id : RectId) : Moves .focus s (s.blur id) := by
  unfold blur
  split
  · exact s.setFocus_moves none
  · exact s.refuse_moves .focus

theorem setFocus_none (s : Stage) : s.setFocus none = s.transfer .focus none := by
  unfold setFocus
  split
  case isTrue h =>
    rw [h]
    exact (s.transfer_self .focus).symm
  case isFalse => rfl

theorem setFocus_known (h : hasRect s.rects id = true) :
    s.setFocus (some id) = s.transfer .focus (some id) := by
  unfold setFocus
  split
  case isTrue he =>
    rw [he]
    exact (s.transfer_self .focus).symm
  case isFalse => exact if_pos h

/-- The events of `emitAt` go to a rectangle with the identifier, if there is one. -/
theorem emitAt_events (s : Stage) (kinds : List EventKind) (id : RectId) :
    events (s.emitAt kinds id) =
      if hasRect s.rects id then kinds.map (⟨·, id, s.pointer.cursor⟩) else [] := by
  unfold emitAt
  cases hfind : findRect s.rects id with
  | none =>
    have hout : ¬ hasRect s.rects id = true := by
      simpa [findRect, hasRect] using hfind
    rw [if_neg hout]
    rfl
  | some r =>
    have hid : r.id = id := by simpa using List.find?_some hfind
    have hin : hasRect s.rects id = true :=
      hasRect_iff.mpr ⟨r, List.mem_of_find?_eq_some hfind, hid⟩
    rw [if_pos hin, ← hid]
    rw [events, List.filterMap_map]
    exact congrFun List.filterMap_eq_map kinds

/-! ## Taking out -/

theorem blur_pointer (s : Stage) (id : RectId) :
    (s.blur id).state.pointer =
      if s.pointer.focused = some id then s.pointer.setHolder .focus none else s.pointer := by
  rw [blur, setFocus_none]
  split
  · exact s.transfer_pointer .focus none
  · rfl

theorem mouseOut_pointer (s : Stage) (id : RectId) :
    (s.mouseOut id).state.pointer =
      if s.pointer.hovered = some id then s.pointer.setHolder .hover none else s.pointer := by
  unfold mouseOut
  split
  · exact s.transfer_pointer .hover none
  · rfl

/-- A rectangle that is about to be taken out loses focus, then hover. -/
def dismiss (s : Stage) (id : RectId) : Stage := ((s.blur id).state.mouseOut id).state

theorem dismiss_bare (s : Stage) (id : RectId) :
    (s.dismiss id).rects.map Rectangle.bare = s.rects.map Rectangle.bare :=
  ((s.blur id).state.mouseOut_moves id).bare.trans (s.blur_moves id).bare

theorem dismiss_pointer (s : Stage) (id : RectId) :
    (s.dismiss id).pointer =
      { s.pointer with
        hovered := if s.pointer.hovered = some id then none else s.pointer.hovered
        focused := if s.pointer.focused = some id then none else s.pointer.focused } := by
  rw [dismiss, mouseOut_pointer, blur_pointer]
  by_cases hf : s.pointer.focused = some id <;> by_cases hh : s.pointer.hovered = some id <;>
    simp [hf, hh, Pointer.setHolder]

theorem dismiss_holder (s : Stage) (id : RectId) (m : Mark) :
    (s.dismiss id).pointer.holder m ≠ some id := by
  have hne (x : Option RectId) : (if x = some id then none else x) ≠ some id := by
    split
    · simp
    · assumption
  rw [dismiss_pointer]
  cases m with
  | hover => exact hne s.pointer.hovered
  | focus => exact hne s.pointer.focused

/-- The stage without the first rectangle that has an identifier. -/
def without (s : Stage) (id : RectId) : Stage :=
  ⟨s.rects.eraseP (·.id = id), s.pointer.forget id⟩

theorem dismiss_without_pressedOn (s : Stage) (id : RectId) :
    ((s.dismiss id).without id).pointer.pressedOn =
      if s.pointer.pressedOn = some id then none else s.pointer.pressedOn := by
  rw [without, dismiss_pointer]
  rfl

end Stage

namespace Scene

variable {s : Scene} {id : RectId}

theorem remove_unknown (h : hasRect s.rects id = false) : s.remove id = ⟨s, [], none⟩ := by
  have hplace : s.rects.findIdx? (·.id = id) = none := by
    rw [List.findIdx?_eq_none_iff]
    intro r hr
    exact Bool.eq_false_iff.mpr (List.any_eq_false.mp h r hr)
  rw [remove, hplace]

/-- The place that was found first still is the right one after focus and hover were taken away. -/
theorem remove_known (h : hasRect s.rects id = true) :
    s.remove id =
      let refreshed := ((s.stage.dismiss id).without id).refresh
      s.lift ⟨refreshed.state,
        (s.stage.blur id).signals ++ ((s.stage.blur id).state.mouseOut id).signals ++
          refreshed.signals,
        findRect (s.stage.dismiss id).rects id⟩ := by
  obtain ⟨place, hplace⟩ : ∃ place, s.rects.findIdx? (·.id = id) = some place := by
    rw [← Option.isSome_iff_exists, List.findIdx?_isSome]
    exact h
  have hstays : (s.stage.dismiss id).rects.findIdx? (·.id = id) = some place :=
    (place_of_bare (s.stage.dismiss_bare id) id).trans hplace
  have herase : (s.stage.dismiss id).rects.eraseP (·.id = id) =
      (s.stage.dismiss id).rects.eraseIdx place := by
    rw [List.eraseP_eq_eraseIdx, hstays]
  have hfind : findRect (s.stage.dismiss id).rects id = (s.stage.dismiss id).rects[place]? := by
    rw [findRect, List.find?_eq_bind_findIdx?_getElem?, hstays, Option.bind_some]
  rw [remove, hplace, hfind, Stage.without, herase]
  rfl

/-- A rectangle is taken out exactly if there is one to take. -/
theorem remove_answer_isSome (s : Scene) (id : RectId) :
    (s.remove id).answer.isSome = hasRect s.rects id := by
  cases h : hasRect s.rects id with
  | false => rw [remove_unknown h]; rfl
  | true =>
    rw [remove_known h]
    show (findRect (s.stage.dismiss id).rects id).isSome = true
    have hin : hasRect (s.stage.dismiss id).rects id = true :=
      (hasRect_of_bare (s.stage.dismiss_bare id) id).trans h
    simpa [findRect, hasRect] using hin

theorem resize_stage (s : Scene) (v : Viewport) : (s.resize v).stage = s.stage := by
  unfold resize
  split <;> rfl

end Scene

end Widgetry
