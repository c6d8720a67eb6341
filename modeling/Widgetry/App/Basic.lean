import Widgetry.App.Input
import Widgetry.Config.Basic
import Widgetry.Gpu.Display

/-!
# The application

The application passes window events on to its scene and its display. It asks for a redraw when
the picture may have changed. The window and its display are opened elsewhere, and the listeners of
the rectangles are the caller's: here is what the application does with them once they are there.
-/

namespace Widgetry

namespace Signal

/-- A holder of a mark in the log. -/
def holderText : Option RectId → String
  | some id => "Some(" ++ id.text ++ ")"
  | none => "None"

/-- The entry that a signal leaves in the log. -/
def entry : Signal → Log.Entry
  | .emitted e _ => ⟨.debug, "rect " ++ e.target.text ++ ": " ++ e.kind.label⟩
  | .moved m holder => ⟨.debug, m.label ++ ": " ++ holderText holder⟩
  | .refused id => ⟨.debug, "focus: ignoring unknown rect " ++ id.text⟩

end Signal

/-- Queues a scene for a frame. -/
def Scene.drawing (s : Scene) : Gpu.Drawing Unit :=
  fun painter _ => (s.drawOn Gpu.Painter.push painter, ())

structure App where
  scene : Scene
  display : Option Gpu.Display := none
  clearColor : Color
  title : String
  initialSize : Viewport
  /-- Whether its window is open. -/
  window : Bool := false
  wantsExit : Bool := false

namespace App

/-- What the application does while it handles an event. -/
inductive Effect where
  | scene (s : Signal)
  | gpu (e : Gpu.Effect)
  | redrawRequested
  | closing
  | windowDestroyed
  | exit
  | renderFailed
  /-- The program stops in the middle of what it does. -/
  | stopped

def Effect.entry? : Effect → Option Log.Entry
  | .scene s => some s.entry
  | .gpu e => e.entry?
  | .closing => some ⟨.info, "Window close requested"⟩
  | .windowDestroyed => some ⟨.info, "Window destroyed"⟩
  | .renderFailed => some ⟨.error, "Render failed: " ++ Gpu.Failure.outOfMemory.message⟩
  | .redrawRequested => none
  | .exit => none
  | .stopped => none

def Effect.call? : Effect → Option Gpu.Call
  | .gpu e => e.call?
  | _ => none

/-- The application for a configuration and its scene. -/
def new (c : Config) (scene : Scene) : App where
  scene
  clearColor := c.clearColor
  title := c.window.title
  initialSize := c.viewport

/-- What follows from how a frame was answered. -/
def Effect.ofAnswer : Except Gpu.Failure Bool → List Effect
  | .ok _ => []
  | .error .outOfMemory => [.renderFailed]
  | .error .overflow => [.stopped]

/-- Draws the scene, if there is a display. -/
def redraw (a : App) (acquired : Gpu.Acquisition) : App × List Effect :=
  match a.display with
  | none => (a, [])
  | some d =>
    let o := d.renderFrame acquired a.clearColor a.scene.drawing ()
    ({ a with display := some o.display }, o.effects.map .gpu ++ Effect.ofAnswer o.answer)

/-- Changes the size of the display, if there is one. -/
def resizeDisplay (a : App) (v : Viewport) : App × List Effect :=
  match a.display with
  | none => (a, [])
  | some d =>
    let (d, effects) := d.resize v
    ({ a with display := some d }, effects.map .gpu)

/-- Applies what the pointer does. -/
def point (a : App) (action : PointerAction) : App × List Effect :=
  let o := action.apply a.scene
  ({ a with scene := o.state },
    o.signals.map .scene ++ if o.answer then [.redrawRequested] else [])

/-- Handles a window event; `acquired` is how the surface answers if a frame is asked for. -/
def handle (a : App) (acquired : Gpu.Acquisition) (e : WindowEvent) : App × List Effect :=
  match PointerAction.ofEvent? e with
  | some action => a.point action
  | none =>
    match e with
    | .closeRequested => (a, [.closing, .exit])
    | .destroyed => (a, [.windowDestroyed])
    | .resized v =>
      let (a, effects) := a.resizeDisplay v
      ({ a with scene := a.scene.resize v }, effects ++ [.redrawRequested])
    | .keyboardInput .pressed .escape => ({ a with wantsExit := true }, [])
    | .redrawRequested => a.redraw acquired
    | _ => (a, [])

/-- All events are handled; leaves if that was asked for. -/
def aboutToWait (a : App) : List Effect := if a.wantsExit then [.exit] else []

/-- Gives the display back before the window goes. -/
def exiting (a : App) : App × List Effect :=
  match a.display with
  | none => ({ a with window := false }, [])
  | some d => ({ a with display := none, window := false }, d.destroy.map .gpu)

end App

end Widgetry
