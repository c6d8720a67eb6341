import Widgetry.Proofs.Picture

/-!
# Flags by the pointer

In a coherent stage the flags say nothing that the pointer does not say (`Coherent.rects_eq`). An
operation that keeps a stage coherent is therefore known in full once it is known what it does to
the pointer and to the bare rectangles. Pressing the button is the first such operation: it looks up
the hovered rectangle twice, once for focus and once for the press, and coherence is why neither
lookup fails.
-/

namespace Widgetry

theorem firstWith_bare (rects : List Rectangle) (holder : Option RectId) :
    firstWith (rects.map Rectangle.bare) holder = firstWith rects holder := by
  simp only [firstWith, List.findIdx?_map]
  rfl

namespace Pointer

/-- Rectangles with the flags that a pointer gives them: each mark is at the first rectangle with
the identifier of its holder. -/
def flag (p : Pointer) (rects : List Rectangle) : List Rectangle :=
  rects.mapIdx fun i r =>
    { r with
      hovered := firstWith rects p.hovered = some i
      focused := firstWith rects p.focused = some i }

theorem flag_of_bare (p : Pointer) {rects rects' : List Rectangle}
    (h : rects'.map Rectangle.bare = rects.map Rectangle.bare) : p.flag rects' = p.flag rects := by
  have hbare (l : List Rectangle) : p.flag (l.map Rectangle.bare) = p.flag l := by
    refine List.ext_getElem (by simp [flag]) ?_
    intro i _ _
    simp only [flag, firstWith_bare, List.getElem_mapIdx, List.getElem_map]
    rfl
  rw [← hbare rects', h, hbare rects]

end Pointer

theorem markRect_unrefused (m : Mark) (on : Bool) (c : Option Point) (x id : RectId)
    (rects : List Rectangle) : Signal.refused id ∉ (markRect m on c x rects).2 := by
  induction rects with
  | nil => exact List.not_mem_nil
  | cons r rest ih =>
    by_cases hx : r.id = x
    · subst hx
      rw [markRect_cons_self, Rectangle.mark]
      split <;> simp [Rectangle.emit]
    · rw [markRect_cons_ne hx]
      exact ih

theorem markHolder_unrefused (m : Mark) (on : Bool) (c : Option Point) (holder : Option RectId)
    (id : RectId) (rects : List Rectangle) :
    Signal.refused id ∉ (markHolder m on c holder rects).2 := by
  cases holder with
  | none => exact List.not_mem_nil
  | some x => exact markRect_unrefused m on c x id rects

namespace Stage

variable {s t : Stage} {target : Option RectId}

/-- A pointer that hovers the same rectangle leaves the hover flags as they are. -/
theorem Coherent.flag_focus (h : s.Coherent) {p : Pointer} (hp : p.hovered = s.pointer.hovered) :
    p.flag s.rects =
      s.rects.mapIdx fun i r => { r with focused := firstWith s.rects p.focused = some i } := by
  refine List.ext_getElem (by simp [Pointer.flag]) ?_
  intro i hi _
  rw [Pointer.flag, List.length_mapIdx] at hi
  have hhover : s.rects[i].hovered = true ↔ firstWith s.rects p.hovered = some i := by
    rw [hp]
    exact (h.marked .hover).has_iff hi
  simp only [Pointer.flag, List.getElem_mapIdx, ← hhover, Bool.decide_eq_true]

theorem Coherent.rects_eq (h : s.Coherent) : s.rects = s.pointer.flag s.rects := by
  rw [h.flag_focus rfl]
  refine List.ext_getElem (by simp) ?_
  intro i hi _
  have hfocus : s.rects[i].focused = true ↔ firstWith s.rects s.pointer.focused = some i :=
    (h.marked .focus).has_iff hi
  simp only [List.getElem_mapIdx, ← hfocus, Bool.decide_eq_true]

/-- The rectangles of a coherent stage, told from what they were. -/
theorem Coherent.rects_of_bare (h : s.Coherent) {rects : List Rectangle}
    (hb : s.rects.map Rectangle.bare = rects.map Rectangle.bare) :
    s.rects = s.pointer.flag rects := by
  rw [← s.pointer.flag_of_bare hb]
  exact h.rects_eq

/-- A coherent stage is known by its pointer and its bare rectangles. -/
theorem Coherent.ext (hs : s.Coherent) (ht : t.Coherent) (hp : s.pointer = t.pointer)
    (hb : s.rects.map Rectangle.bare = t.rects.map Rectangle.bare) : s = t := by
  have hrects : s.rects = t.rects := by
    rw [ht.rects_eq, ← hp]
    exact hs.rects_of_bare hb
  cases s
  cases t
  exact congr (congrArg Stage.mk hrects) hp

/-- Who is told when a mark is asked for: nobody if it is there already. -/
theorem transfer_told (hs : s.Coherent) (ht : s.Knows target) (m : Mark) :
    events (s.transfer m target).signals =
      if s.pointer.holder m = target then []
      else (s.pointer.holder m).toList.map (⟨m.event false, ·, s.pointer.cursor⟩) ++
        target.toList.map (⟨m.event true, ·, s.pointer.cursor⟩) := by
  by_cases h : s.pointer.holder m = target
  · rw [if_pos h, ← h, transfer_self]
    rfl
  · rw [if_neg h]
    exact transfer_events hs ht (Ne.symm h)

/-- A mark that moves is no refusal. -/
theorem transfer_unrefused (s : Stage) (m : Mark) (target : Option RectId) (id : RectId) :
    Signal.refused id ∉ (s.transfer m target).signals := by
  by_cases h : target = s.pointer.holder m
  · rw [h, transfer_self]
    exact List.not_mem_nil
  · rw [transfer_of_ne h]
    simp [markHolder_unrefused]

/-! ## Pressing -/

/-- The stage once the pointer remembers what the button went down on. -/
def noted (s : Stage) : Stage :=
  { s with pointer := { s.pointer with pressedOn := s.pointer.hovered } }

theorem noted_coherent (hs : s.Coherent) : s.noted.Coherent :=
  (setPressedOn_follows hs (hs.knows .hover)).coherent

/-- Focus goes to what is hovered: that is in the stack, so it is not refused. -/
theorem noted_setFocus (hs : s.Coherent) :
    s.noted.setFocus s.pointer.hovered = s.noted.transfer .focus s.pointer.hovered :=
  setFocus_of_knows (hs.knows .hover)

theorem pressed_pointer (hs : s.Coherent) :
    s.pressed.state.pointer =
      { s.pointer with focused := s.pointer.hovered, pressedOn := s.pointer.hovered } := by
  show (s.noted.setFocus s.pointer.hovered).state.pointer = _
  rw [noted_setFocus hs, transfer_pointer]
  rfl

theorem pressed_bare (s : Stage) :
    s.pressed.state.rects.map Rectangle.bare = s.rects.map Rectangle.bare :=
  (s.noted.setFocus_moves s.pointer.hovered).bare

theorem pressed_signals (hs : s.Coherent) :
    s.pressed.signals = (s.noted.transfer .focus s.pointer.hovered).signals ++
      s.pointer.hovered.toList.flatMap (s.pressed.state.emitAt [.press]) := by
  rw [← noted_setFocus hs]
  unfold pressed noted
  cases s.pointer.hovered with
  | none => rfl
  | some id => simp

/-- The rectangle that loses focus is told first, then the one that gains it, which is then told of
the press. -/
theorem pressed_told (hs : s.Coherent) :
    events s.pressed.signals =
      (if s.pointer.focused = s.pointer.hovered then []
        else s.pointer.focused.toList.map (⟨.blur, ·, s.pointer.cursor⟩) ++
          s.pointer.hovered.toList.map (⟨.focus, ·, s.pointer.cursor⟩)) ++
      s.pointer.hovered.toList.map (⟨.press, ·, s.pointer.cursor⟩) := by
  have hpress : events (s.pointer.hovered.toList.flatMap (s.pressed.state.emitAt [.press])) =
      s.pointer.hovered.toList.map (⟨.press, ·, s.pointer.cursor⟩) := by
    cases hh : s.pointer.hovered with
    | none => rfl
    | some id =>
      have hin : hasRect s.pressed.state.rects id = true := by
        rw [hasRect_of_bare s.pressed_bare]
        exact hs.knows .hover id hh
      simp [emitAt_events, hin, pressed_pointer hs]
  have hknows : s.noted.Knows s.pointer.hovered := hs.knows .hover
  rw [pressed_signals hs, events_append, hpress, transfer_told (noted_coherent hs) hknows]
  rfl

theorem pressed_unrefused (hs : s.Coherent) (id : RectId) :
    Signal.refused id ∉ s.pressed.signals := by
  have hpress (x : RectId) : Signal.refused id ∉ s.pressed.state.emitAt [.press] x := by
    unfold emitAt
    split <;> simp [Rectangle.emit]
  rw [pressed_signals hs]
  simp [transfer_unrefused, hpress]

end Stage

namespace Scene

/-- Pressing the button, at any time of any run, answers the hovered rectangle, gives it focus and
remembers it; nothing is focused or remembered if nothing is hovered. The cursor, hover and all of
the rectangles but who has focus stay as they are. Who had focus is told that it is gone, who is
hovered that it has come and that it is pressed, in this order and with the cursor, unless focus is
there already; no focus is refused on the way. -/
theorem press_focuses_hovered (v : Viewport) (ops : List Op) :
    let s := after v ops
    let h := s.pointer.hovered
    let f := s.pointer.focused
    let c := s.pointer.cursor
    let o := s.pressed
    o.answer = h ∧ o.state.viewport = s.viewport ∧
    o.state.pointer = { s.pointer with focused := h, pressedOn := h } ∧
    o.state.rects = s.rects.mapIdx (fun i r =>
      { r with focused := firstWith s.rects h = some i }) ∧
    events o.signals =
      (if f = h then [] else f.toList.map (⟨.blur, ·, c⟩) ++ h.toList.map (⟨.focus, ·, c⟩)) ++
        h.toList.map (⟨.press, ·, c⟩) ∧
    ∀ id, .refused id ∉ o.signals := by
  intro s h f c o
  have hs : s.stage.Coherent := after_coherent v ops
  refine ⟨rfl, rfl, Stage.pressed_pointer hs, ?_, Stage.pressed_told hs,
    Stage.pressed_unrefused hs⟩
  have hafter := (Stage.pressed_follows hs).coherent.rects_of_bare s.stage.pressed_bare
  rw [Stage.pressed_pointer hs] at hafter
  exact hafter.trans (hs.flag_focus rfl)

end Scene

end Widgetry
