import Mathlib.Data.List.Induction
import Widgetry.Proofs.Run

/-!
# Clicks

Whether letting go of the button is a click depends on the history: on which press came last and
on what happened since. The pointer keeps one identifier of it. `pressedOn_iff` says that this is
enough, whatever was moved, added, hovered or focused in between.
-/

namespace Widgetry

/-- How many clicks were signalled. -/
def clicks (signals : List Signal) : Nat := (events signals).countP (·.kind = .click)

@[simp] theorem clicks_append (a b : List Signal) : clicks (a ++ b) = clicks a + clicks b := by
  simp [clicks]

theorem clicks_eq_zero {signals : List Signal} (h : ∀ e ∈ events signals, e.kind ≠ .click) :
    clicks signals = 0 := by
  rw [clicks, List.countP_eq_zero]
  simpa using h

namespace Stage

variable {s : Stage} {id : RectId}

theorem Moves.clicks {α : Type} {m : Mark} {o : Outcome Stage α} (h : Moves m s o) :
    clicks o.signals = 0 := by
  apply clicks_eq_zero
  intro e he
  obtain ⟨on, hkind⟩ := h.kind e he
  rw [hkind]
  cases m <;> cases on <;> decide

theorem pressed_clicks (s : Stage) : clicks s.pressed.signals = 0 := by
  have hfocus := (Stage.setFocus_moves
    { s with pointer := { s.pointer with pressedOn := s.pointer.hovered } }
    s.pointer.hovered).clicks
  simp only [pressed, clicks_append, hfocus, Nat.zero_add]
  apply clicks_eq_zero
  intro e he
  split at he
  · rw [emitAt_events] at he
    split at he
    · obtain ⟨kind, hkind, rfl⟩ := List.mem_map.mp he
      rw [List.mem_singleton.mp hkind]
      show EventKind.press ≠ EventKind.click
      decide
    · cases he
  · cases he

/-- Letting go of the button over nothing is no event. Over a rectangle it is a release, and then a
click if the button went down there. -/
theorem released_cases (hs : s.Coherent) :
    (s.pointer.hovered = none ∧ events s.released.signals = [] ∧ s.released.answer = false) ∨
    ∃ id, s.pointer.hovered = some id ∧
      ((s.pointer.pressedOn ≠ some id ∧ s.released.answer = false ∧
          events s.released.signals = [⟨.release, id, s.pointer.cursor⟩]) ∨
        (s.pointer.pressedOn = some id ∧ s.released.answer = true ∧
          events s.released.signals =
            [⟨.release, id, s.pointer.cursor⟩, ⟨.click, id, s.pointer.cursor⟩])) := by
  cases h : s.pointer.hovered with
  | none =>
    refine .inl ⟨rfl, ?_⟩
    simp [released, h, events]
  | some id =>
    have hin : hasRect s.rects id = true := hs.knows .hover id h
    refine .inr ⟨id, rfl, ?_⟩
    by_cases hp : s.pointer.pressedOn = some id
    · exact .inr ⟨hp, by simp [released, h, hin, hp], by simp [released, h, hin, hp, emitAt_events]⟩
    · exact .inl ⟨hp, by simp [released, h, hin, hp], by simp [released, h, hin, hp, emitAt_events]⟩

theorem released_clicks (hs : s.Coherent) :
    clicks s.released.signals ≤ s.pointer.pressedOn.toList.length := by
  unfold clicks
  rcases released_cases hs with ⟨_, hev, _⟩ | ⟨id, _, ⟨_, _, hev⟩ | ⟨hp, _, hev⟩⟩
  · simp [hev]
  · simp [hev]
  · simp [hev, hp]

end Stage

namespace Scene

variable {s : Scene} {id : RectId} {v : Viewport}

/-- The operations that change what the pointer remembers as pressed. -/
theorem step_pressedOn (s : Scene) (op : Op) :
    (s.step op).1.pointer.pressedOn =
      match op with
      | .pressed => s.pointer.hovered
      | .released => none
      | .remove id =>
        if s.pointer.pressedOn = some id ∧ hasRect s.rects id = true then none
        else s.pointer.pressedOn
      | _ => s.pointer.pressedOn := by
  cases op with
  | add r idle => exact (Stage.refresh_moves _).pressedOn
  | remove id =>
    cases h : hasRect s.rects id with
    | false => simp [step, remove_unknown h, h]
    | true =>
      have hp := (((s.stage.dismiss id).without id).refresh_moves).pressedOn
      rw [Stage.dismiss_without_pressedOn] at hp
      simp only [step, remove_known h, h, and_true]
      exact hp
  | edit id e => rfl
  | resize v =>
    show (s.resize v).stage.pointer.pressedOn = _
    rw [resize_stage]
    rfl
  | cursorMoved p => exact (Stage.refresh_moves _).pressedOn
  | cursorLeft => exact (Stage.refresh_moves _).pressedOn
  | pressed => exact (Stage.setFocus_moves _ s.pointer.hovered).pressedOn
  | released =>
    simp only [step, released, lift, Stage.released]
    split
    · rfl
    · split <;> rfl
  | setFocus target => exact (Stage.setFocus_moves _ target).pressedOn
  | focus id => exact (Stage.setFocus_moves _ (some id)).pressedOn
  | blur id => exact (Stage.blur_moves _ id).pressedOn
  | mouseIn id => exact (Stage.mouseIn_moves _ id).pressedOn
  | mouseOut id => exact (Stage.mouseOut_moves _ id).pressedOn
  | refresh => exact (Stage.refresh_moves _).pressedOn

theorem step_clicks (s : Scene) {op : Op} (h : op ≠ .released) : clicks (s.step op).2 = 0 := by
  cases op with
  | add r idle => exact (Stage.refresh_moves _).clicks
  | remove id =>
    cases hin : hasRect s.rects id with
    | false => simp [step, remove_unknown hin, clicks, events]
    | true =>
      simp only [step, remove_known hin, lift, clicks_append, (s.stage.blur_moves id).clicks,
        ((s.stage.blur id).state.mouseOut_moves id).clicks, (Stage.refresh_moves _).clicks]
  | edit id e => rfl
  | resize v => rfl
  | cursorMoved p => exact (Stage.refresh_moves _).clicks
  | cursorLeft => exact (Stage.refresh_moves _).clicks
  | pressed => exact s.stage.pressed_clicks
  | released => exact absurd rfl h
  | setFocus target => exact (Stage.setFocus_moves _ target).clicks
  | focus id => exact (Stage.setFocus_moves _ (some id)).clicks
  | blur id => exact (Stage.blur_moves _ id).clicks
  | mouseIn id => exact (Stage.mouseIn_moves _ id).clicks
  | mouseOut id => exact (Stage.mouseOut_moves _ id).clicks
  | refresh => exact (Stage.refresh_moves _).clicks

/-- A press is over when the button goes down or up again, or when the pressed rectangle is taken
out. -/
def EndsPress (s : Scene) (id : RectId) : Op → Prop
  | .pressed => True
  | .released => True
  | .remove x => x = id ∧ (s.remove x).answer.isSome = true
  | _ => False

/-- A rectangle was pressed during a run, and nothing since has ended that press. -/
def PressStands (v : Viewport) (ops : List Op) (id : RectId) : Prop :=
  ∃ before later, ops = before ++ .pressed :: later ∧
    (after v before).pressed.answer = some id ∧
    ∀ mid op rest, later = mid ++ op :: rest →
      ¬ EndsPress (after v (before ++ .pressed :: mid)) id op

theorem not_pressStands_nil (v : Viewport) (id : RectId) : ¬ PressStands v [] id := by
  rintro ⟨before, later, hops, _⟩
  simp at hops

/-- One more operation is the press itself or does not end the press that stands. -/
theorem pressStands_concat {ops : List Op} {op : Op} :
    PressStands v (ops ++ [op]) id ↔
      (op = .pressed ∧ (after v ops).pressed.answer = some id) ∨
      (¬ EndsPress (after v ops) id op ∧ PressStands v ops id) := by
  constructor
  · rintro ⟨before, later, hops, hpress, hkeep⟩
    -- The operation added last is the press itself when nothing came after the press.
    rcases List.eq_nil_or_concat later with rfl | ⟨later, last, rfl⟩
    · obtain ⟨rfl, hop⟩ := List.append_inj' hops rfl
      exact .inl ⟨List.head_eq_of_cons_eq hop, hpress⟩
    · rw [List.concat_eq_append, ← List.cons_append, ← List.append_assoc] at hops
      obtain ⟨rfl, hop⟩ := List.append_inj' hops rfl
      obtain rfl := List.head_eq_of_cons_eq hop
      refine .inr ⟨hkeep later op [] (by simp), before, later, rfl, hpress, ?_⟩
      intro mid x rest hlater
      exact hkeep mid x (rest ++ [op]) (by simp [hlater])
  · rintro (⟨rfl, hpress⟩ | ⟨hop, before, later, rfl, hpress, hkeep⟩)
    · refine ⟨ops, [], rfl, hpress, ?_⟩
      intro mid x rest hnil
      simp at hnil
    · refine ⟨before, later ++ [op], by simp, hpress, ?_⟩
      intro mid x rest hlater
      rcases List.eq_nil_or_concat rest with rfl | ⟨rest, last, rfl⟩
      · obtain ⟨rfl, hx⟩ := List.append_inj' hlater rfl
        obtain rfl := List.head_eq_of_cons_eq hx
        exact hop
      · rw [List.concat_eq_append, ← List.cons_append, ← List.append_assoc] at hlater
        obtain ⟨rfl, _⟩ := List.append_inj' hlater rfl
        exact hkeep mid x rest rfl

theorem step_pressedOn_iff (s : Scene) (op : Op) (id : RectId) :
    (s.step op).1.pointer.pressedOn = some id ↔
      (op = .pressed ∧ s.pressed.answer = some id) ∨
      (¬ EndsPress s id op ∧ s.pointer.pressedOn = some id) := by
  rw [step_pressedOn]
  cases op with
  | pressed =>
    have hanswer : s.pressed.answer = s.pointer.hovered := rfl
    simp [EndsPress, hanswer]
  | remove x =>
    by_cases hp : s.pointer.pressedOn = some x
    · by_cases hx : x = id <;> simp [EndsPress, remove_answer_isSome, hp, hx]
    · have hx : s.pointer.pressedOn = some id → x ≠ id := fun h he => hp (he ▸ h)
      simpa [EndsPress, hp] using fun h he => absurd he (hx h)
  | _ => simp [EndsPress]

/-- The pointer remembers exactly the press that stands. -/
theorem pressedOn_iff (v : Viewport) (ops : List Op) (id : RectId) :
    (after v ops).pointer.pressedOn = some id ↔ PressStands v ops id := by
  induction ops using List.reverseRecOn with
  | nil =>
    have hnone : (after v []).pointer.pressedOn = none := rfl
    simp [hnone, not_pressStands_nil]
  | append_singleton ops op ih =>
    rw [after_concat, step_pressedOn_iff, pressStands_concat, ih]

/-- Without another press there is at most the click of the press that stands. -/
theorem run_clicks_le (hs : s.stage.Coherent) {later : List Op} (h : .pressed ∉ later) :
    clicks (s.run later).2 ≤ s.pointer.pressedOn.toList.length := by
  induction later generalizing s with
  | nil => simp [run, clicks, events]
  | cons op rest ih =>
    -- The bound is on what is remembered and not on 1: a release spends it.
    obtain ⟨hop, hrest⟩ := List.ne_and_not_mem_of_not_mem_cons h
    have hlater := ih (step_follows hs op).coherent hrest
    rw [run, clicks_append]
    by_cases hr : op = .released
    · subst hr
      have hgone : (s.step .released).1.pointer.pressedOn = none := step_pressedOn s .released
      rw [hgone] at hlater
      exact Nat.add_le_add (Stage.released_clicks hs) hlater
    · rw [step_clicks s hr, Nat.zero_add]
      refine Nat.le_trans hlater ?_
      cases hp : (s.step op).1.pointer.pressedOn with
      | none => simp
      | some id =>
        rcases (step_pressedOn_iff s op id).mp hp with ⟨he, _⟩ | ⟨_, hbefore⟩
        · exact absurd he.symm hop
        · exact Nat.le_of_eq (by rw [hbefore])

/-- Letting go of the button, at any time of any run, is a click on a rectangle exactly if the
rectangle is hovered and a press on it stands. It tells the hovered rectangle of the release, then
of the click if it is one, and nobody else; and a press is good for one click at most. -/
theorem click_iff_press_stands (v : Viewport) (ops : List Op) :
    let s := after v ops
    let told := (events s.released.signals).map fun e => (e.kind, e.target)
    (∀ id, (s.released.answer = true ∧ (.click, id) ∈ told) ↔
      s.pointer.hovered = some id ∧ PressStands v ops id) ∧
    ((s.pointer.hovered = none ∧ told = [] ∧ s.released.answer = false) ∨
      ∃ id, s.pointer.hovered = some id ∧
        ((told = [(.release, id)] ∧ s.released.answer = false) ∨
          (told = [(.release, id), (.click, id)] ∧ s.released.answer = true))) ∧
    ∀ later, .pressed ∉ later → clicks (s.run later).2 ≤ 1 := by
  intro s told
  have hs : s.stage.Coherent := after_coherent v ops
  have hcases := Stage.released_cases hs
  refine ⟨?_, ?_, ?_⟩
  · intro id
    have hp : PressStands v ops id ↔ s.stage.pointer.pressedOn = some id :=
      (pressedOn_iff v ops id).symm
    have hhovered : s.pointer.hovered = s.stage.pointer.hovered := rfl
    have hanswer : s.released.answer = s.stage.released.answer := rfl
    rw [hp, hhovered, hanswer]
    rcases hcases with ⟨hh, hev, hans⟩ | ⟨x, hh, ⟨hx, hans, hev⟩ | ⟨hx, hans, hev⟩⟩
    · simp [hh, hans]
    · have hne : x = id → s.stage.pointer.pressedOn ≠ some id := fun he => he ▸ hx
      simpa [hh, hans] using hne
    · have htold : told = [(.release, x), (.click, x)] := congrArg _ hev
      simp [hh, hx, hans, htold, eq_comm]
  · rcases hcases with ⟨hh, hev, hans⟩ | ⟨x, hh, ⟨_, hans, hev⟩ | ⟨_, hans, hev⟩⟩
    · exact .inl ⟨hh, congrArg _ hev, hans⟩
    · exact .inr ⟨x, hh, .inl ⟨congrArg _ hev, hans⟩⟩
    · exact .inr ⟨x, hh, .inr ⟨congrArg _ hev, hans⟩⟩
  · intro later hlater
    refine Nat.le_trans (run_clicks_le hs hlater) ?_
    cases s.pointer.pressedOn <;> simp

end Scene

end Widgetry
