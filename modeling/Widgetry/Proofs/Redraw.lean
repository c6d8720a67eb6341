import Widgetry.App.Basic
import Widgetry.Proofs.Run

/-!
# No change goes unseen

The application decides by the pointer whether to ask for a redraw, while the picture is made of
the flags, colors and places of the rectangles and of the viewport. `App.run_draw` says that the
two never part: as long as no redraw is asked for, the picture stays what it was. Nothing is
assumed of the application; its flags and its pointer need not even agree.
-/

namespace Widgetry

namespace Stage

variable {s : Stage} {m : Mark} {target : Option RectId}

theorem transfer_state_of_holder
    (h : (s.transfer m target).state.pointer.holder m = s.pointer.holder m) :
    (s.transfer m target).state = s := by
  rw [transfer_pointer, Pointer.holder_setHolder] at h
  subst h
  rw [transfer_self]
  rfl

/-- Focus that is asked for and does not move was there already or is refused. -/
theorem setFocus_state_of_focused
    (h : (s.setFocus target).state.pointer.focused = s.pointer.focused) :
    (s.setFocus target).state = s := by
  by_cases hk : s.Knows target
  · rw [setFocus_of_knows hk] at h ⊢
    exact transfer_state_of_holder h
  · cases target with
    | none => exact absurd s.knows_none hk
    | some id =>
      rw [knows_some, Bool.not_eq_true] at hk
      by_cases hf : s.pointer.focused = some id
      · rw [setFocus, if_pos hf.symm]
        rfl
      · rw [setFocus_unknown hk hf]

theorem refresh_rects_of_answer (h : s.refresh.answer = false) : s.refresh.state.rects = s.rects :=
  congrArg (fun o : Outcome Stage Bool => o.state.rects) (transfer_refused h)

theorem pressed_rects_of_focused (h : s.pressed.state.pointer.focused = s.pointer.focused) :
    s.pressed.state.rects = s.rects := by
  let noted : Stage := { s with pointer := { s.pointer with pressedOn := s.pointer.hovered } }
  have hstate : (noted.setFocus s.pointer.hovered).state = noted := setFocus_state_of_focused h
  have hrects := congrArg rects hstate
  exact hrects

theorem released_rects (s : Stage) : s.released.state.rects = s.rects := by
  unfold released
  split
  · rfl
  · split <;> rfl

end Stage

/-- An action that answers that nothing changed leaves the picture as it is. -/
theorem PointerAction.apply_draw {action : PointerAction} {s : Scene}
    (h : (action.apply s).answer = false) : (action.apply s).state.draw = s.draw := by
  suffices hrects : (action.apply s).state.stage.rects = s.stage.rects by
    have hview : (action.apply s).state.viewport = s.viewport := by cases action <;> rfl
    rw [Scene.draw, Scene.draw, Scene.rects, Scene.rects, hrects, hview]
  cases action with
  | moved p => exact Stage.refresh_rects_of_answer h
  | left => exact Stage.refresh_rects_of_answer h
  | pressed =>
    have hf : s.pressed.state.pointer.focused = s.pointer.focused := by simpa [apply] using h
    exact Stage.pressed_rects_of_focused hf
  | released => exact s.stage.released_rects

namespace App

variable {a : App} {acquired : Gpu.Acquisition} {e : WindowEvent}

/-- Window events one after the other, each with how the surface answers if it is asked. -/
def run (a : App) : List (Gpu.Acquisition × WindowEvent) → App × List Effect
  | [] => (a, [])
  | (acquired, e) :: rest =>
    let handled := a.handle acquired e
    let later := handled.1.run rest
    (later.1, handled.2 ++ later.2)

theorem redraw_scene (a : App) (acquired : Gpu.Acquisition) :
    (a.redraw acquired).1.scene = a.scene := by
  unfold redraw
  split <;> rfl

theorem point_draw {action : PointerAction} (h : Effect.redrawRequested ∉ (a.point action).2) :
    (a.point action).1.scene.draw = a.scene.draw := by
  apply PointerAction.apply_draw
  simpa [point] using h

/-- Each event that changes the picture asks for a redraw. -/
theorem handle_draw (h : Effect.redrawRequested ∉ (a.handle acquired e).2) :
    (a.handle acquired e).1.scene.draw = a.scene.draw := by
  unfold handle at h ⊢
  split at h
  case h_1 action _ => exact point_draw h
  case h_2 =>
    split at h
    case h_3 => simp at h
    case h_5 => rw [redraw_scene]
    all_goals rfl

theorem run_draw {events : List (Gpu.Acquisition × WindowEvent)}
    (h : Effect.redrawRequested ∉ (a.run events).2) :
    (a.run events).1.scene.draw = a.scene.draw := by
  induction events generalizing a with
  | nil => rfl
  | cons event rest ih =>
    rw [run, List.mem_append, not_or] at h
    exact (ih h.2).trans (handle_draw h.1)

/-- Over any sequence of window events during which no redraw is asked for, the picture stays
exactly what it was; so it does under a pointer action that answers that nothing changed. -/
theorem picture_stays_without_redraw (a : App) (events : List (Gpu.Acquisition × WindowEvent)) :
    (Effect.redrawRequested ∉ (a.run events).2 →
      (a.run events).1.scene.draw = a.scene.draw) ∧
    ∀ (action : PointerAction) (s : Scene), (action.apply s).answer = false →
      (action.apply s).state.draw = s.draw :=
  ⟨run_draw, fun _ _ => PointerAction.apply_draw⟩

/-- Whether an effect asks for a redraw. -/
def Effect.isRequest : Effect → Bool
  | .redrawRequested => true
  | _ => false

theorem redrawRequested_mem_iff {effects : List Effect} :
    Effect.redrawRequested ∈ effects ↔ effects.any Effect.isRequest = true := by
  rw [List.any_eq_true]
  constructor
  · intro h
    exact ⟨_, h, rfl⟩
  · rintro ⟨e, he, hreq⟩
    cases e <;> first | exact he | cases hreq

/-- An application with two rectangles on top of each other; the upper one is hovered and has
focus. -/
def settled : App :=
  { App.new .standard (Scene.after .standard
      [.add (.make ⟨1⟩ ⟨0, 0⟩ 20 20) ⟨rfl, rfl⟩, .add (.make ⟨2⟩ ⟨0, 0⟩ 20 20) ⟨rfl, rfl⟩,
        .cursorMoved ⟨5, 5⟩, .pressed]) with
    display := some (Gpu.Display.init .standard "Bgra8Unorm").1 }

/-- A move inside a rectangle, a second click on it, another button, a key and two redraws, one of
them without memory. -/
def idling : List (Gpu.Acquisition × WindowEvent) :=
  [.cursorMoved 6 6, .mouseInput .released .left, .mouseInput .pressed .left,
    .mouseInput .released .left, .mouseInput .pressed .right, .keyboardInput .pressed .escape,
    .redrawRequested, .other "MouseWheel"].map (.frame, ·) ++ [(.outOfMemory, .redrawRequested)]

theorem picture_stays_without_redraw_idling :
    Effect.redrawRequested ∉ (settled.run idling).2 ∧ settled.scene.draw.length = 2 ∧
    (settled.run idling).1.scene.draw = settled.scene.draw := by
  have h : Effect.redrawRequested ∉ (settled.run idling).2 := by
    rw [redrawRequested_mem_iff]
    decide +kernel
  exact ⟨h, by decide +kernel, (picture_stays_without_redraw settled idling).1 h⟩

end App

end Widgetry
