import Widgetry.Scene

/-!
# Input from the window

Window events, and the few of them that move or press the pointer.
-/

namespace Widgetry

/-- Whether a button or key went down or up. -/
inductive ButtonState where
  | pressed
  | released
  deriving DecidableEq, Repr

inductive MouseButton where
  | left
  | right
  | middle
  | back
  | forward
  | other (number : Nat)
  deriving DecidableEq, Repr

/-- What a key stands for. -/
inductive Key where
  | escape
  | named (name : String)
  | character (s : String)
  | dead
  | unidentified
  deriving DecidableEq, Repr

inductive WindowEvent where
  | cursorMoved (x y : Float)
  | cursorLeft
  | mouseInput (state : ButtonState) (button : MouseButton)
  | resized (size : Viewport)
  | keyboardInput (state : ButtonState) (key : Key)
  | closeRequested
  | destroyed
  | redrawRequested
  /-- Anything else that a window reports. -/
  | other (name : String)

/-- What the pointer does. -/
inductive PointerAction where
  | moved (p : Point)
  | left
  | pressed
  | released

namespace PointerAction

/-- The action of a window event, if it has one. Only the left button counts. -/
def ofEvent? : WindowEvent → Option PointerAction
  | .cursorMoved x y => some (.moved ⟨Number.narrow x, Number.narrow y⟩)
  | .cursorLeft => some .left
  | .mouseInput .pressed .left => some .pressed
  | .mouseInput .released .left => some .released
  | _ => none

/-- Applies an action to a scene and answers whether the picture may have changed. -/
def apply (a : PointerAction) (s : Scene) : Outcome Scene Bool :=
  match a with
  | .moved p => s.cursorMoved p
  | .left => s.cursorLeft
  | .pressed =>
    let o := s.pressed
    ⟨o.state, o.signals, o.state.pointer.focused ≠ s.pointer.focused⟩
  | .released =>
    let o := s.released
    ⟨o.state, o.signals, false⟩

end PointerAction

end Widgetry
