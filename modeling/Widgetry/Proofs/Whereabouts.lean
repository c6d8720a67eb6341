import Mathlib.Data.List.Induction
import Widgetry.Proofs.Answers
import Widgetry.Proofs.Removal

/-!
# Where the cursor was last seen

Of the cursor the pointer knows what was reported last: a place, or that it left the window. No
other operation touches that, so it can be told from the history alone (`Scene.after_cursor`). Who
gains or loses a mark is told it with the rest, whatever moved the mark (`MarkCall.apply_told`).
Focus that is given or taken by a call, with no input from the mouse, is thus announced with the
place where the cursor rests; only where no cursor is known does such an event go without one.
-/

namespace Widgetry

/-- A mark that changes hands is announced to somebody, so that the cursor shows. -/
theorem Mark.exchange_unseen_iff {m : Mark} {held next : Option RectId} (h : held ≠ next)
    (cursor : Option Point) :
    (∀ e ∈ held.toList.map (⟨m.event false, ·, cursor⟩) ++
        next.toList.map (⟨m.event true, ·, cursor⟩), Event.cursor e = none) ↔ cursor = none := by
  constructor
  · intro hall
    cases held with
    | some id => exact hall _ List.mem_cons_self
    | none =>
      cases next with
      | some id => exact hall _ List.mem_cons_self
      | none => exact absurd rfl h
  · intro hnone e he
    rw [List.mem_append, List.mem_map, List.mem_map] at he
    rcases he with ⟨id, _, he⟩ | ⟨id, _, he⟩
    · rw [← he]
      exact hnone
    · rw [← he]
      exact hnone

namespace MarkCall

variable {c : MarkCall}

/-- A mark ends up with a rectangle of the stack, or with nobody. -/
theorem knows_target {s : Stage} (hs : s.Coherent) (c : MarkCall) : s.Knows (c.target s) := by
  have hgive (m : Mark) (id : RectId) :
      s.Knows (if hasRect s.rects id then some id else s.pointer.holder m) := by
    split
    case isTrue hin => exact Stage.knows_some.mpr hin
    case isFalse => exact hs.knows m
  have htake (m : Mark) (id : RectId) :
      s.Knows (if s.pointer.holder m = some id then none else s.pointer.holder m) := by
    split
    · exact s.knows_none
    · exact hs.knows m
  cases c with
  | cursorMoved p => exact s.knows_underCursor
  | cursorLeft => exact s.knows_underCursor
  | refresh => exact s.knows_underCursor
  | mouseIn id => exact hgive .hover id
  | mouseOut id => exact htake .hover id
  | setFocus target =>
    cases target with
    | none => exact s.knows_none
    | some id => exact hgive .focus id
  | focus id => exact hgive .focus id
  | blur id => exact htake .focus id

/-- Who is told of a call: the old holder of the mark and the new one, with the cursor as the call
reports it; nobody if the mark stays. -/
theorem apply_told {s : Scene} (hs : s.stage.Coherent) (c : MarkCall) :
    let held := s.pointer.holder c.mark
    let next := c.target (c.report s.stage)
    let cursor := c.cursor s.pointer.cursor
    events (c.apply s).signals =
      if held = next then []
      else held.toList.map (⟨c.mark.event false, ·, cursor⟩) ++
        next.toList.map (⟨c.mark.event true, ·, cursor⟩) := by
  intro held next cursor
  have hreport : (c.report s.stage).Coherent := (Stage.setCursor_follows hs cursor).coherent
  obtain ⟨-, -, htold⟩ := c.apply_eq_transfer s
  rw [htold, Stage.transfer_told hreport (knows_target hreport c), report_holder]
  rfl

/-- Calls for focus report nothing of the cursor. -/
theorem cursor_of_focus (hc : c.mark = .focus) (before : Option Point) :
    c.cursor before = before := by
  cases c with
  | setFocus target => rfl
  | focus id => rfl
  | blur id => rfl
  | _ => cases hc

theorem report_of_focus (hc : c.mark = .focus) (s : Stage) : c.report s = s := by
  rw [report, cursor_of_focus hc]

end MarkCall

namespace Scene

/-- What an operation reports of the cursor: a place, that it left, or nothing. -/
def Op.report? : Op → Option (Option Point)
  | .cursorMoved p => some (some p)
  | .cursorLeft => some none
  | _ => none

/-- Where the cursor is according to the last report. It is nowhere before the first one. -/
def lastSeen (ops : List Op) : Option Point := (ops.filterMap Op.report?).getLast?.join

theorem lastSeen_concat (ops : List Op) (op : Op) :
    lastSeen (ops ++ [op]) = op.report?.getD (lastSeen ops) := by
  rw [lastSeen, List.filterMap_append]
  cases h : op.report? with
  | none => simp [h, lastSeen]
  | some report => simp [h]

/-- The pointer takes over what an operation reports, and nothing else moves its cursor. -/
theorem step_cursor (s : Scene) (op : Op) :
    (s.step op).1.pointer.cursor = op.report?.getD s.pointer.cursor := by
  cases op with
  | add r idle => exact (s.pushed r).refresh_moves.cursor
  | remove id =>
    cases h : hasRect s.rects id with
    | false =>
      rw [step, remove_unknown h]
      rfl
    | true =>
      rw [step, remove_pointer h]
      rfl
  | edit id e => rfl
  | resize v =>
    show (s.resize v).stage.pointer.cursor = s.pointer.cursor
    rw [resize_stage]
    rfl
  | cursorMoved p => exact (Stage.refresh_moves _).cursor
  | cursorLeft => exact (Stage.refresh_moves _).cursor
  | pressed => exact (s.stage.noted.setFocus_moves s.pointer.hovered).cursor
  | released =>
    simp only [step, released, lift, Stage.released]
    split
    · rfl
    · split <;> rfl
  | setFocus target => exact (s.stage.setFocus_moves target).cursor
  | focus id => exact (s.stage.setFocus_moves (some id)).cursor
  | blur id => exact (s.stage.blur_moves id).cursor
  | mouseIn id => exact (s.stage.mouseIn_moves id).cursor
  | mouseOut id => exact (s.stage.mouseOut_moves id).cursor
  | refresh => exact s.stage.refresh_moves.cursor

/-- After a run the pointer knows of the cursor what was reported last. -/
theorem after_cursor (v : Viewport) (ops : List Op) :
    (after v ops).pointer.cursor = lastSeen ops := by
  induction ops using List.reverseRecOn with
  | nil => rfl
  | append_singleton ops op ih => rw [after_concat, step_cursor, lastSeen_concat, ih]

/-- Focus that is given or taken by a call, at any time of any run. Who had focus and who gets it
are told, and both are told where the cursor was last seen, although the mouse had no part in it.
So they are told of no cursor exactly if focus stays where it is, when nobody is told anything, or
if the cursor is not known: it has not been seen yet, or it left and has not come back. -/
theorem focus_calls_tell_last_cursor (v : Viewport) (ops : List Op) {c : MarkCall}
    (hc : c.mark = .focus) :
    let s := after v ops
    let o := c.apply s
    let held := s.pointer.focused
    let next := c.target s.stage
    let seen := lastSeen ops
    o.state.pointer.focused = next ∧
    events o.signals =
      (if held = next then []
      else held.toList.map (⟨.blur, ·, seen⟩) ++ next.toList.map (⟨.focus, ·, seen⟩)) ∧
    ((∀ e ∈ events o.signals, e.cursor = none) ↔ held = next ∨ seen = none) := by
  intro s o held next seen
  have hs : s.stage.Coherent := after_coherent v ops
  have hseen : s.pointer.cursor = seen := after_cursor v ops
  have hnext : o.state.pointer.focused = next := by
    have hholder := c.apply_holder s
    rw [MarkCall.report_of_focus hc, hc] at hholder
    exact hholder
  have htold : events o.signals =
      if held = next then []
      else held.toList.map (⟨.blur, ·, seen⟩) ++ next.toList.map (⟨.focus, ·, seen⟩) := by
    have h := MarkCall.apply_told hs c
    rw [MarkCall.report_of_focus hc, MarkCall.cursor_of_focus hc, hseen, hc] at h
    exact h
  refine ⟨hnext, htold, ?_⟩
  rw [htold]
  by_cases hsame : held = next
  · simp [hsame]
  · rw [if_neg hsame, or_iff_right hsame]
    exact Mark.exchange_unseen_iff (m := .focus) hsame seen

/-- A rectangle with a listener for focus, and a cursor that comes to rest beside it. -/
def resting : List Op :=
  [.add ((Rectangle.make ⟨4⟩ ⟨0, 0⟩ 10 10).on .focus ⟨7⟩) ⟨rfl, rfl⟩, .cursorMoved ⟨50, 50⟩]

theorem focus_calls_tell_last_cursor_resting :
    MarkCall.mark (.blur ⟨4⟩) = .focus ∧
    events ((after .standard (resting ++ [.focus ⟨4⟩])).blur ⟨4⟩).signals =
      [⟨.blur, ⟨4⟩, some ⟨50, 50⟩⟩] ∧
    events ((after .standard (resting ++ [.focus ⟨4⟩, .cursorLeft])).blur ⟨4⟩).signals =
      [⟨.blur, ⟨4⟩, none⟩] := by
  have hrests :=
    focus_calls_tell_last_cursor .standard (resting ++ [.focus ⟨4⟩]) (c := .blur ⟨4⟩) rfl
  have hleft :=
    focus_calls_tell_last_cursor .standard (resting ++ [.focus ⟨4⟩, .cursorLeft])
      (c := .blur ⟨4⟩) rfl
  exact ⟨rfl, hrests.2.1, hleft.2.1⟩

/-- It is not so that calls for focus tell of no cursor. -/
theorem focus_calls_can_tell_cursor :
    .emitted ⟨.focus, ⟨4⟩, some ⟨50, 50⟩⟩ [⟨7⟩] ∈
      ((after .standard resting).focus ⟨4⟩).signals ∧
    ¬ ∀ (v : Viewport) (ops : List Op) (c : MarkCall), c.mark = .focus →
      ∀ e ∈ events (c.apply (after v ops)).signals, e.cursor = none := by
  have htold : ((after .standard resting).focus ⟨4⟩).signals =
      [.emitted ⟨.focus, ⟨4⟩, some ⟨50, 50⟩⟩ [⟨7⟩], .moved .focus (some ⟨4⟩)] := by
    rfl
  have hmem : ⟨.focus, ⟨4⟩, some ⟨50, 50⟩⟩ ∈
      events (MarkCall.apply (after .standard resting) (.focus ⟨4⟩)).signals := by
    show _ ∈ events ((after .standard resting).focus ⟨4⟩).signals
    rw [htold]
    exact List.mem_cons_self
  refine ⟨?_, ?_⟩
  · rw [htold]
    exact List.mem_cons_self
  · intro h
    exact absurd (h .standard resting (.focus ⟨4⟩) rfl _ hmem) (Option.some_ne_none _)

end Scene

end Widgetry
