import Widgetry.Event
import Widgetry.Quad

/-!
# Rectangles

A rectangle has a place, a size, a color for each of its states, and listeners. Hover and focus
are two marks of the same kind: a rectangle has each of them or not, and gaining or losing one
emits an event.
-/

namespace Widgetry

/-- The two marks that the pointer hands out. -/
inductive Mark where
  | hover
  | focus
  deriving DecidableEq, Repr

namespace Mark

/-- The event of gaining (`true`) or losing (`false`) a mark. -/
def event : Mark → Bool → EventKind
  | .hover, true => .mouseIn
  | .hover, false => .mouseOut
  | .focus, true => .focus
  | .focus, false => .blur

/-- The word used in messages. -/
def label : Mark → String
  | .hover => "hover"
  | .focus => "focus"

end Mark

/-- Something a scene operation did: an event reached the listeners of a rectangle, a mark moved,
or focus was refused because no rectangle has the identifier. -/
inductive Signal where
  | emitted (event : Event) (ran : List Listener)
  | moved (mark : Mark) (holder : Option RectId)
  | refused (target : RectId)

structure Rectangle where
  id : RectId
  topLeft : Point
  width : UInt32
  height : UInt32
  fill : Color
  hoverColor : Color
  focusColor : Color
  listeners : Listeners
  hovered : Bool
  focused : Bool

namespace Rectangle

/-- The color under the pointer, unless one is chosen. -/
def hoverShade (fill : Color) : Color := fill.darken 0.1

/-- The color in focus, unless one is chosen. -/
def focusShade (fill : Color) : Color := fill.darken 0.25

/-- A rectangle in the standard fill, without marks or listeners. -/
def make (id : RectId) (topLeft : Point) (width height : UInt32) : Rectangle where
  id
  topLeft
  width
  height
  fill := .standardFill
  hoverColor := hoverShade .standardFill
  focusColor := focusShade .standardFill
  listeners := {}
  hovered := false
  focused := false

/-- A new fill, with the shades that belong to it. -/
def withColor (r : Rectangle) (fill : Color) : Rectangle :=
  { r with fill, hoverColor := hoverShade fill, focusColor := focusShade fill }

def withHoverColor (r : Rectangle) (c : Color) : Rectangle := { r with hoverColor := c }

def withFocusColor (r : Rectangle) (c : Color) : Rectangle := { r with focusColor := c }

def moveTo (r : Rectangle) (p : Point) : Rectangle := { r with topLeft := p }

def resize (r : Rectangle) (width height : UInt32) : Rectangle := { r with width, height }

/-- A registration for a kind of event. -/
def on (r : Rectangle) (kind : EventKind) (listener : Listener) : Rectangle :=
  { r with listeners := r.listeners.on kind listener }

/-- A copy is a rectangle of its own: it has its own identifier and no marks. -/
def copy (r : Rectangle) (id : RectId) : Rectangle :=
  { r with id, hovered := false, focused := false }

def bottomRight (r : Rectangle) : Point := r.topLeft.offset r.width.toFloat32 r.height.toFloat32

/-- Whether a point lies in the rectangle, its border included. -/
def contains (r : Rectangle) (p : Point) : Bool :=
  p.x ≥ r.topLeft.x && p.x ≤ r.bottomRight.x && p.y ≥ r.topLeft.y && p.y ≤ r.bottomRight.y

/-- The color it is drawn in: focus wins over hover. -/
def currentColor (r : Rectangle) : Color :=
  if r.focused then r.focusColor else if r.hovered then r.hoverColor else r.fill

/-- Whether it has a mark. -/
def has (r : Rectangle) : Mark → Bool
  | .hover => r.hovered
  | .focus => r.focused

/-- The rectangle with a mark given or taken. -/
def put (r : Rectangle) : Mark → Bool → Rectangle
  | .hover, on => { r with hovered := on }
  | .focus, on => { r with focused := on }

/-- The event that tells its listeners what happened. -/
def emit (r : Rectangle) (kind : EventKind) (cursor : Option Point) : Signal :=
  .emitted ⟨kind, r.id, cursor⟩ (r.listeners.runs kind)

/-- Gives or takes a mark, with an event if that changes anything. -/
def mark (r : Rectangle) (m : Mark) (on : Bool) (cursor : Option Point) :
    Rectangle × List Signal :=
  if r.has m = on then (r, []) else ((r.put m on), [r.emit (m.event on) cursor])

/-- The area it takes in device coordinates. -/
def quad (r : Rectangle) (v : Viewport) : Quad where
  topLeft := v.map r.topLeft
  bottomRight := v.map r.bottomRight
  color := r.currentColor

/-- What is drawn of it: nothing if it has no area. -/
def draw (r : Rectangle) (v : Viewport) : Option Quad :=
  if r.width = 0 || r.height = 0 then none else some (r.quad v)

end Rectangle

end Widgetry
