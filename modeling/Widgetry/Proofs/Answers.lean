import Widgetry.Proofs.Independence

/-!
# Answers

A call for hover or focus answers whether its mark changed hands. The answer can be trusted in both
directions and in every scene, also in one whose pointer remembers rectangles that are gone or
whose identifiers repeat: a call that answers no has at most moved the cursor, and one that answers
yes has given the mark to somebody else. `MarkCall.apply_eq_transfer` is why eight calls need one
argument.
-/

namespace Widgetry

namespace MarkCall

variable {c : MarkCall} {s : Scene}

/-- A call that answers no has reported the cursor and done nothing else. -/
theorem apply_refused (h : (c.apply s).answer = false) :
    (c.apply s).state = { s with stage := c.report s.stage } ∧
      events (c.apply s).signals = [] := by
  obtain ⟨hstate, hanswer, htold⟩ := c.apply_eq_transfer s
  rw [hanswer] at h
  rw [hstate, htold, Stage.transfer_refused h]
  exact ⟨rfl, rfl⟩

theorem apply_holder (c : MarkCall) (s : Scene) :
    (c.apply s).state.pointer.holder c.mark = c.target (c.report s.stage) := by
  obtain ⟨hstate, -, -⟩ := c.apply_eq_transfer s
  rw [hstate]
  show ((c.report s.stage).transfer c.mark _).state.pointer.holder c.mark = _
  rw [Stage.transfer_pointer, Pointer.holder_setHolder]

/-- A call answers yes exactly if its mark is with somebody else afterwards. -/
theorem apply_answer_iff (c : MarkCall) (s : Scene) :
    (c.apply s).answer = true ↔
      (c.apply s).state.pointer.holder c.mark ≠ s.pointer.holder c.mark := by
  obtain ⟨-, hanswer, -⟩ := c.apply_eq_transfer s
  rw [hanswer, Stage.transfer_answer_iff, report_holder, apply_holder]
  rfl

end MarkCall

namespace Scene

variable {s : Scene} {id : RectId}

theorem mouseIn_unknown (h : hasRect s.rects id = false) : s.mouseIn id = ⟨s, [], false⟩ := by
  have hstage : s.stage.mouseIn id = s.stage.refuse := if_neg (ne_true_of_eq_false h)
  rw [mouseIn, hstage]
  rfl

theorem mouseOut_of_ne (h : s.pointer.hovered ≠ some id) : s.mouseOut id = ⟨s, [], false⟩ := by
  have hstage : s.stage.mouseOut id = s.stage.refuse := if_neg h
  rw [mouseOut, hstage]
  rfl

theorem blur_of_ne (h : s.pointer.focused ≠ some id) : s.blur id = ⟨s, [], false⟩ := by
  have hstage : s.stage.blur id = s.stage.refuse := if_neg h
  rw [blur, hstage]
  rfl

theorem focus_of_eq (h : s.pointer.focused = some id) : s.focus id = ⟨s, [], false⟩ := by
  have hstage : s.stage.setFocus (some id) = s.stage.refuse := if_pos h.symm
  rw [focus, setFocus, hstage]
  rfl

/-- What is refused is noted in the log, unless it is what has focus already. -/
theorem focus_unknown (h : hasRect s.rects id = false) :
    s.focus id =
      ⟨s, if s.pointer.focused = some id then [] else [.refused id], false⟩ := by
  by_cases hf : s.pointer.focused = some id
  · rw [if_pos hf, focus_of_eq hf]
  · have hstage := Stage.setFocus_unknown (s := s.stage) h hf
    rw [if_neg hf, focus, setFocus, hstage]
    rfl

/-- In every scene, a call for hover or focus answers yes if and only if its mark is with somebody
else afterwards. If it answers no, nothing changed but the cursor that it reports, and no rectangle
was told anything. So hover and focus cannot be given to a rectangle that does not exist or taken
from one that does not have them, and asking for focus where it is does nothing: the scene is the
very same. -/
theorem answers_tell_changes (s : Scene) :
    (∀ c : MarkCall,
      ((c.apply s).answer = true ↔
        (c.apply s).state.pointer.holder c.mark ≠ s.pointer.holder c.mark) ∧
      ((c.apply s).answer = false →
        (c.apply s).state = { s with stage.pointer.cursor := c.cursor s.pointer.cursor } ∧
          events (c.apply s).signals = [])) ∧
    (∀ id, hasRect s.rects id = false →
      let refusal : Outcome Scene Bool :=
        ⟨s, if s.pointer.focused = some id then [] else [.refused id], false⟩
      s.mouseIn id = ⟨s, [], false⟩ ∧ s.setFocus (some id) = refusal ∧ s.focus id = refusal) ∧
    (∀ id, s.pointer.focused = some id →
      s.setFocus (some id) = ⟨s, [], false⟩ ∧ s.focus id = ⟨s, [], false⟩) ∧
    (∀ id, s.pointer.hovered ≠ some id → s.mouseOut id = ⟨s, [], false⟩) ∧
    ∀ id, s.pointer.focused ≠ some id → s.blur id = ⟨s, [], false⟩ := by
  refine ⟨?_, ?_, ?_, ?_, ?_⟩
  · intro c
    exact ⟨c.apply_answer_iff s, MarkCall.apply_refused⟩
  · intro id h
    exact ⟨mouseIn_unknown h, focus_unknown h, focus_unknown h⟩
  · intro id h
    exact ⟨focus_of_eq h, focus_of_eq h⟩
  · exact fun id => mouseOut_of_ne
  · exact fun id => blur_of_ne

end Scene

end Widgetry
