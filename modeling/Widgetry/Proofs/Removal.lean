import Widgetry.Proofs.Flagged
import Widgetry.Proofs.Independence

/-!
# Taking out

A rectangle that is taken out loses focus, then hover; then it goes, the pointer forgets it, and
hover is looked for again. Each step has its own reasons to do nothing. `Scene.remove_told` says
what the rectangles are told over all of them, and the lemmas beside it what is left of the pointer
and of the stack. Adding a rectangle and taking it out again undoes all of it.
-/

namespace Widgetry

theorem Rectangle.Idle.bare_eq {r : Rectangle} (h : r.Idle) : r.bare = r := by
  obtain ⟨hhover, hfocus⟩ := h
  cases r
  cases hhover
  cases hfocus
  rfl

theorem findRect_bare (rects : List Rectangle) (id : RectId) :
    findRect (rects.map Rectangle.bare) id = (findRect rects id).map Rectangle.bare := by
  rw [findRect, List.find?_map]
  rfl

/-- The first rectangle with an identifier divides the stack. -/
theorem findRect_split {rects : List Rectangle} {id : RectId} (h : hasRect rects id = true) :
    ∃ below r above, rects = below ++ r :: above ∧ r.id = id ∧ (∀ x ∈ below, x.id ≠ id) ∧
      findRect rects id = some r ∧ rects.eraseP (·.id = id) = below ++ above := by
  have hsome : (findRect rects id).isSome = true := by simpa [findRect, hasRect] using h
  obtain ⟨r, hr⟩ := Option.isSome_iff_exists.mp hsome
  obtain ⟨hid, below, above, hsplit, hbelow⟩ := List.find?_eq_some_iff_append.mp hr
  have hne : ∀ x ∈ below, ¬ decide (x.id = id) = true := by simpa using hbelow
  refine ⟨below, r, above, hsplit, by simpa using hid, by simpa using hne, hr, ?_⟩
  rw [hsplit, List.eraseP_append_right _ hne, List.eraseP_cons_of_pos (by simpa using hid)]

theorem eraseP_bare (rects : List Rectangle) (id : RectId) :
    (rects.map Rectangle.bare).eraseP (·.id = id) =
      (rects.eraseP (·.id = id)).map Rectangle.bare := by
  rw [List.eraseP_map]
  rfl

theorem topmostAt_push (rects : List Rectangle) (r : Rectangle) (p : Point) :
    topmostAt (rects ++ [r]) p = if r.contains p then some r.id else topmostAt rects p := by
  by_cases h : r.contains p = true
  · simp [topmostAt, h]
  · simp [topmostAt, h]

namespace Stage

variable {s : Stage} {id : RectId}

/-- The holder of a mark is told when it is to give it up; anybody else is not. -/
theorem release_told (hs : s.Coherent) (m : Mark) (id : RectId) :
    events (s.transfer m
        (if s.pointer.holder m = some id then none else s.pointer.holder m)).signals =
      if s.pointer.holder m = some id then [⟨m.event false, id, s.pointer.cursor⟩] else [] := by
  by_cases h : s.pointer.holder m = some id
  · rw [if_pos h, if_pos h, transfer_told hs s.knows_none, h]
    rfl
  · rw [if_neg h, if_neg h, transfer_self]
    rfl

theorem blur_told (hs : s.Coherent) (id : RectId) :
    events (s.blur id).signals =
      if s.pointer.focused = some id then [⟨.blur, id, s.pointer.cursor⟩] else [] := by
  rw [blur_eq_transfer]
  exact release_told hs .focus id

theorem mouseOut_told (hs : s.Coherent) (id : RectId) :
    events (s.mouseOut id).signals =
      if s.pointer.hovered = some id then [⟨.mouseOut, id, s.pointer.cursor⟩] else [] := by
  rw [mouseOut_eq_transfer]
  exact release_told hs .hover id

/-- What the rectangle is told before it goes. -/
theorem dismiss_told (hs : s.Coherent) (id : RectId) :
    events ((s.blur id).signals ++ ((s.blur id).state.mouseOut id).signals) =
      (if s.pointer.focused = some id then [⟨.blur, id, s.pointer.cursor⟩] else []) ++
        if s.pointer.hovered = some id then [⟨.mouseOut, id, s.pointer.cursor⟩] else [] := by
  have hmoves := s.blur_moves id
  have hhover : (s.blur id).state.pointer.hovered = s.pointer.hovered :=
    hmoves.holder_ne (n := .hover) (by decide)
  rw [events_append, blur_told hs, mouseOut_told (blur_follows hs id).coherent, hhover,
    hmoves.cursor]

theorem dismiss_coherent (hs : s.Coherent) (id : RectId) : (s.dismiss id).Coherent :=
  (mouseOut_follows (blur_follows hs id).coherent id).coherent

/-! ## What is left -/

theorem rest_coherent (hs : s.Coherent) (id : RectId) : ((s.dismiss id).without id).Coherent :=
  (without_follows (dismiss_coherent hs id) (s.dismiss_holder id)).coherent

theorem rest_bare (s : Stage) (id : RectId) :
    ((s.dismiss id).without id).rects.map Rectangle.bare =
      (s.rects.eraseP (·.id = id)).map Rectangle.bare := by
  rw [← eraseP_bare, ← s.dismiss_bare id, eraseP_bare]
  rfl

theorem rest_pointer (s : Stage) (id : RectId) :
    ((s.dismiss id).without id).pointer = s.pointer.forget id := by
  have hgone (x : Option RectId) :
      (if (if x = some id then none else x) = some id then none
        else if x = some id then none else x) = if x = some id then none else x := by
    by_cases h : x = some id <;> simp [h]
  rw [without, dismiss_pointer]
  simp only [Pointer.forget, hgone]

/-- What the cursor is over once the first rectangle with an identifier is gone. -/
def underneath (s : Stage) (id : RectId) : Option RectId :=
  s.pointer.cursor.bind (topmostAt (s.rects.eraseP (·.id = id)))

theorem rest_underCursor (s : Stage) (id : RectId) :
    ((s.dismiss id).without id).underCursor = s.underneath id := by
  rw [underCursor, rest_pointer, funext (topmostAt_of_bare (s.rest_bare id))]
  rfl

/-- What is told when hover is looked for again. -/
theorem rest_told (hs : s.Coherent) (id : RectId) :
    events ((s.dismiss id).without id).refresh.signals =
      if (s.pointer.forget id).hovered = s.underneath id then []
      else (s.pointer.forget id).hovered.toList.map (⟨.mouseOut, ·, s.pointer.cursor⟩) ++
        (s.underneath id).toList.map (⟨.mouseIn, ·, s.pointer.cursor⟩) := by
  rw [refresh, transfer_told (rest_coherent hs id) (knows_underCursor _), rest_pointer,
    rest_underCursor]
  rfl

/-- Over both steps hover goes from its holder to what is underneath. If the holder goes, it is told
even if its identifier gains hover again. -/
theorem hover_told (h t : Option RectId) (id : RectId) (c : Option Point) :
    (if h = some id then [Event.mk .mouseOut id c] else []) ++
        (if (if h = some id then none else h) = t then []
          else (if h = some id then none else h).toList.map (⟨.mouseOut, ·, c⟩) ++
            t.toList.map (⟨.mouseIn, ·, c⟩)) =
      if h = some id ∨ h ≠ t then
        h.toList.map (⟨.mouseOut, ·, c⟩) ++ t.toList.map (⟨.mouseIn, ·, c⟩)
      else [] := by
  by_cases hid : h = some id
  · subst hid
    cases t <;> simp
  · simp only [hid, false_or]
    by_cases ht : h = t <;> simp [ht]

end Stage

namespace Scene

variable {s : Scene} {id : RectId} {r : Rectangle}

theorem remove_coherent (hs : s.stage.Coherent) (id : RectId) :
    (s.remove id).state.stage.Coherent := (remove_follows hs id).coherent

/-- What is taken out is the first rectangle with the identifier, without its marks. -/
theorem remove_answer (hs : s.stage.Coherent) (id : RectId) :
    (s.remove id).answer = (findRect s.rects id).map Rectangle.bare := by
  cases hin : hasRect s.rects id with
  | false =>
    have hnone : findRect s.rects id = none := by simpa [findRect, hasRect] using hin
    rw [remove_unknown hin, hnone]
    rfl
  | true =>
    have hanswer : (s.remove id).answer = findRect (s.stage.dismiss id).rects id := by
      rw [remove_known hin]
      rfl
    have hbare : (s.remove id).answer.map Rectangle.bare =
        (findRect s.rects id).map Rectangle.bare := by
      rw [hanswer, ← findRect_bare, s.stage.dismiss_bare, findRect_bare]
      rfl
    rw [← hbare]
    cases hr : (s.remove id).answer with
    | none => rfl
    | some r => exact congrArg some (remove_idle hs hr).bare_eq.symm

theorem remove_bare (h : hasRect s.rects id = true) :
    (s.remove id).state.rects.map Rectangle.bare =
      (s.rects.eraseP (·.id = id)).map Rectangle.bare := by
  rw [remove_known h]
  exact (Stage.refresh_moves _).bare.trans (s.stage.rest_bare id)

theorem remove_pointer (h : hasRect s.rects id = true) :
    (s.remove id).state.pointer =
      { s.pointer.forget id with hovered := s.stage.underneath id } := by
  rw [remove_known h]
  show (((s.stage.dismiss id).without id).transfer .hover _).state.pointer = _
  rw [Stage.transfer_pointer, Stage.rest_pointer, Stage.rest_underCursor]
  rfl

/-- The rectangle that goes is told that it loses focus, then that it loses hover. Then hover is
handed on, unless it stays where it was. -/
theorem remove_told (hs : s.stage.Coherent) (h : hasRect s.rects id = true) :
    events (s.remove id).signals =
      (if s.pointer.focused = some id then [⟨.blur, id, s.pointer.cursor⟩] else []) ++
        if s.pointer.hovered = some id ∨ s.pointer.hovered ≠ s.stage.underneath id then
          s.pointer.hovered.toList.map (⟨.mouseOut, ·, s.pointer.cursor⟩) ++
            (s.stage.underneath id).toList.map (⟨.mouseIn, ·, s.pointer.cursor⟩)
        else [] := by
  have hsplit : events (s.remove id).signals =
      events ((s.stage.blur id).signals ++ ((s.stage.blur id).state.mouseOut id).signals) ++
        events ((s.stage.dismiss id).without id).refresh.signals := by
    rw [remove_known h, ← events_append]
    rfl
  rw [hsplit, Stage.dismiss_told hs, Stage.rest_told hs, List.append_assoc, ← Stage.hover_told]
  rfl

theorem remove_viewport (s : Scene) (id : RectId) :
    (s.remove id).state.viewport = s.viewport := by
  unfold remove
  split <;> rfl

/-- Taking a rectangle out, at any time of any run. Without a rectangle of that identifier nothing
happens. Otherwise the first one comes back without its marks, and the others keep their order and
everything but their flags, which are as the pointer says. The pointer forgets the identifier as
focused and as pressed, keeps the cursor and hovers the topmost of the others that contains it. The
rectangle that goes is told that it loses focus if it has it; then who is hovered that it loses
hover and what is on top that it gains it, unless that is the same and stays. -/
theorem removal_in_full (v : Viewport) (ops : List Op) (id : RectId) :
    let s := after v ops
    let o := s.remove id
    ((∀ r ∈ s.rects, r.id ≠ id) ∧ o = ⟨s, [], none⟩) ∨
    ∃ below r above t, s.rects = below ++ r :: above ∧ r.id = id ∧ (∀ x ∈ below, x.id ≠ id) ∧
      let c := s.pointer.cursor
      let h := s.pointer.hovered
      IsHit (below ++ above) c t ∧
      o.answer = some { r with hovered := false, focused := false } ∧
      o.state.viewport = s.viewport ∧
      o.state.pointer =
        { cursor := c
          hovered := t
          focused := if s.pointer.focused = some id then none else s.pointer.focused
          pressedOn := if s.pointer.pressedOn = some id then none else s.pointer.pressedOn } ∧
      o.state.rects = o.state.pointer.flag (below ++ above) ∧
      events o.signals =
        (if s.pointer.focused = some id then [⟨.blur, id, c⟩] else []) ++
          if h = some id ∨ h ≠ t then
            h.toList.map (⟨.mouseOut, ·, c⟩) ++ t.toList.map (⟨.mouseIn, ·, c⟩)
          else [] := by
  intro s o
  have hs : s.stage.Coherent := after_coherent v ops
  cases hin : hasRect s.rects id with
  | false =>
    refine .inl ⟨?_, remove_unknown hin⟩
    simpa [hasRect] using hin
  | true =>
    obtain ⟨below, r, above, hsplit, hid, hbelow, hfind, herase⟩ := findRect_split hin
    have hhit : IsHit (below ++ above) s.pointer.cursor (s.stage.underneath id) := by
      rw [isHit_iff, ← herase]
      rfl
    refine .inr ⟨below, r, above, s.stage.underneath id, hsplit, hid, hbelow, hhit, ?_,
      s.remove_viewport id, remove_pointer hin, ?_, remove_told hs hin⟩
    · exact (remove_answer hs id).trans (by rw [hfind]; rfl)
    · have hbare := remove_bare hin
      rw [herase] at hbare
      exact (remove_coherent hs id).rects_of_bare hbare

/-! ## Adding and taking out again -/

/-- The stage with a rectangle on top that hover has not found yet. -/
def pushed (s : Scene) (r : Rectangle) : Stage :=
  { s.stage with rects := s.stage.rects ++ [r] }

theorem pushed_underCursor (s : Scene) (r : Rectangle) :
    (s.pushed r).underCursor =
      if s.pointer.cursor.any r.contains then some r.id else s.stage.underCursor := by
  have hcursor : (s.pushed r).pointer.cursor = s.pointer.cursor := rfl
  have hunder : s.stage.underCursor = s.pointer.cursor.bind (topmostAt s.rects) := rfl
  rw [Stage.underCursor, hcursor, hunder]
  cases s.pointer.cursor with
  | none => rfl
  | some p => exact topmostAt_push s.rects r p

theorem add_pointer (s : Scene) (r : Rectangle) :
    (s.add r).state.pointer = { s.pointer with hovered := (s.pushed r).underCursor } :=
  (s.pushed r).transfer_pointer .hover _

theorem add_bare (s : Scene) (r : Rectangle) :
    (s.add r).state.rects.map Rectangle.bare = (s.rects ++ [r]).map Rectangle.bare :=
  (s.pushed r).refresh_moves.bare

theorem add_told (hs : s.stage.Coherent) (hr : r.Idle) :
    events (s.add r).signals =
      if s.pointer.hovered = (s.pushed r).underCursor then []
      else s.pointer.hovered.toList.map (⟨.mouseOut, ·, s.pointer.cursor⟩) ++
        (s.pushed r).underCursor.toList.map (⟨.mouseIn, ·, s.pointer.cursor⟩) :=
  Stage.transfer_told (Stage.push_follows hs hr).coherent (s.pushed r).knows_underCursor .hover

theorem add_known (s : Scene) (r : Rectangle) : hasRect (s.add r).state.rects r.id = true := by
  rw [hasRect_of_bare (s.add_bare r)]
  simp [hasRect]

section Undo

variable (hid : ∀ x ∈ s.rects, x.id ≠ r.id)
include hid

theorem add_find :
    (findRect (s.add r).state.rects r.id).map Rectangle.bare = some r.bare := by
  have hfind : findRect (s.rects ++ [r]) r.id = some r := by
    have hnone : s.rects.find? (·.id = r.id) = none := by simpa using hid
    simp [findRect, List.find?_append, hnone]
  rw [← findRect_bare, s.add_bare r, findRect_bare, hfind]
  rfl

theorem add_erase :
    ((s.add r).state.rects.eraseP (·.id = r.id)).map Rectangle.bare =
      s.rects.map Rectangle.bare := by
  have herase : (s.rects ++ [r]).eraseP (·.id = r.id) = s.rects := by
    rw [List.eraseP_append_right _ (by simpa using hid)]
    simp
  rw [← eraseP_bare, s.add_bare r, eraseP_bare, herase]

theorem add_underneath : (s.add r).state.stage.underneath r.id = s.stage.underCursor := by
  have hcursor : (s.add r).state.stage.pointer.cursor = s.stage.pointer.cursor :=
    (s.pushed r).refresh_moves.cursor
  have htop : topmostAt ((s.add r).state.stage.rects.eraseP (·.id = r.id)) =
      topmostAt s.stage.rects := funext (topmostAt_of_bare (add_erase hid))
  rw [Stage.underneath, hcursor, htop]
  rfl

/-- The pointer of a coherent scene has no identifier that is not in the scene. -/
theorem ne_of_knows {target : Option RectId} (h : s.stage.Knows target) : target ≠ some r.id := by
  intro ht
  obtain ⟨x, hx, hxid⟩ := hasRect_iff.mp (h r.id ht)
  exact hid x hx hxid

theorem remove_add_pointer (hs : s.stage.Coherent) (hsync : s.stage.InSync) :
    ((s.add r).state.remove r.id).state.pointer = s.pointer := by
  have hfocus : s.pointer.focused ≠ some r.id := ne_of_knows hid (hs.knows .focus)
  have hpress : s.pointer.pressedOn ≠ some r.id := ne_of_knows hid hs.pressed
  have hhover : s.stage.underCursor = s.pointer.hovered := hsync.symm
  rw [remove_pointer (s.add_known r), add_underneath hid, s.add_pointer r, hhover]
  simp only [Pointer.forget, if_neg hfocus, if_neg hpress]

theorem remove_add_state (hs : s.stage.Coherent) (hsync : s.stage.InSync) (hr : r.Idle) :
    ((s.add r).state.remove r.id).state = s := by
  have hadd : (s.add r).state.stage.Coherent := (add_follows hs hr).coherent
  have hbare : ((s.add r).state.remove r.id).state.rects.map Rectangle.bare =
      s.rects.map Rectangle.bare := (remove_bare (s.add_known r)).trans (add_erase hid)
  have hview : ((s.add r).state.remove r.id).state.viewport = s.viewport :=
    (s.add r).state.remove_viewport r.id
  exact eq_of_parts hview
    ((remove_coherent hadd r.id).ext hs (remove_add_pointer hid hs hsync) hbare)

/-- What adding told is told again in reverse. -/
theorem remove_add_told (hs : s.stage.Coherent) (hsync : s.stage.InSync) (hr : r.Idle) :
    events ((s.add r).state.remove r.id).signals =
      if s.pointer.hovered = (s.pushed r).underCursor then []
      else (s.pushed r).underCursor.toList.map (⟨.mouseOut, ·, s.pointer.cursor⟩) ++
        s.pointer.hovered.toList.map (⟨.mouseIn, ·, s.pointer.cursor⟩) := by
  have hback : (s.add r).state.stage.underneath r.id = s.pointer.hovered :=
    (add_underneath hid).trans hsync.symm
  have hfocus : s.pointer.focused ≠ some r.id := ne_of_knows hid (hs.knows .focus)
  have hhover : s.pointer.hovered ≠ some r.id := ne_of_knows hid (hs.knows .hover)
  rw [remove_told (add_follows hs hr).coherent (s.add_known r), s.add_pointer r, hback,
    if_neg hfocus, List.nil_append]
  by_cases h : s.pointer.hovered = (s.pushed r).underCursor
  · rw [← h, if_pos rfl, if_neg (by simpa using hhover)]
  · rw [if_neg h, if_pos (.inr (Ne.symm h))]

/-- A rectangle that comes under the cursor takes hover over and gives it back; any other one is not
noticed. -/
theorem add_remove_told (hs : s.stage.Coherent) (hsync : s.stage.InSync) (hr : r.Idle) :
    events ((s.add r).signals ++ ((s.add r).state.remove r.id).signals) =
      if s.pointer.cursor.any r.contains then
        s.pointer.hovered.toList.map (⟨.mouseOut, ·, s.pointer.cursor⟩) ++
          [⟨.mouseIn, r.id, s.pointer.cursor⟩, ⟨.mouseOut, r.id, s.pointer.cursor⟩] ++
          s.pointer.hovered.toList.map (⟨.mouseIn, ·, s.pointer.cursor⟩)
      else [] := by
  have hhover : s.pointer.hovered ≠ some r.id := ne_of_knows hid (hs.knows .hover)
  have hback : s.stage.underCursor = s.pointer.hovered := hsync.symm
  rw [events_append, add_told hs hr, remove_add_told hid hs hsync hr, pushed_underCursor, hback]
  by_cases hc : s.pointer.cursor.any r.contains = true
  · simp [hc, hhover]
  · simp [hc]

end Undo

/-- Adding a rectangle to a synced scene and taking it out again, at any time of any run, changes
nothing. The rectangle comes back as it was, and the scene is what it was: rectangles, flags,
viewport, cursor, hover, focus and what is pressed. Nobody is told anything unless the rectangle
comes under the cursor; then hover goes from its holder to the rectangle and back. -/
theorem removing_undoes_adding (v : Viewport) (ops : List Op) (r : Rectangle)
    (hsync : (after v ops).Synced) (hr : r.Idle) (hid : ∀ x ∈ (after v ops).rects, x.id ≠ r.id) :
    let s := after v ops
    let c := s.pointer.cursor
    let h := s.pointer.hovered
    let added := s.add r
    let removed := added.state.remove r.id
    removed.answer = some r ∧ removed.state = s ∧
    events (added.signals ++ removed.signals) =
      if c.any r.contains then
        h.toList.map (⟨.mouseOut, ·, c⟩) ++ [⟨.mouseIn, r.id, c⟩, ⟨.mouseOut, r.id, c⟩] ++
          h.toList.map (⟨.mouseIn, ·, c⟩)
      else [] := by
  intro s c h added removed
  have hs : s.stage.Coherent := after_coherent v ops
  have hadd : added.state.stage.Coherent := (add_follows hs hr).coherent
  have hin : s.stage.InSync := synced_iff.mp hsync
  refine ⟨?_, remove_add_state hid hs hin hr, add_remove_told hid hs hin hr⟩
  have hanswer := (remove_answer hadd r.id).trans (add_find hid)
  rw [hr.bare_eq] at hanswer
  exact hanswer

/-- A rectangle under the cursor that is hovered, pressed and in focus. -/
def occupied : List Op :=
  [.add (.make ⟨4⟩ ⟨0, 0⟩ 30 30) ⟨rfl, rfl⟩, .cursorMoved ⟨5, 5⟩, .pressed]

theorem removing_undoes_adding_occupied :
    let s := after .standard occupied
    let added := s.add (.make ⟨5⟩ ⟨2, 2⟩ 40 40)
    let removed := added.state.remove ⟨5⟩
    s.Synced ∧ added.state.pointer.hovered = some ⟨5⟩ ∧ removed.state = s ∧
    handovers .hover (added.signals ++ removed.signals) =
      [(.mouseOut, ⟨4⟩), (.mouseIn, ⟨5⟩), (.mouseOut, ⟨5⟩), (.mouseIn, ⟨4⟩)] := by
  have hsync : (after .standard occupied).Synced := by
    rw [synced_iff]
    show (after .standard occupied).stage.pointer.hovered = _
    decide +kernel
  have h := removing_undoes_adding .standard occupied (.make ⟨5⟩ ⟨2, 2⟩ 40 40) hsync ⟨rfl, rfl⟩
    (by decide +kernel)
  exact ⟨hsync, by decide +kernel, h.2.1, by decide +kernel⟩

end Scene

end Widgetry
