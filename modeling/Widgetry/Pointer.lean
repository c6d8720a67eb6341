import Widgetry.Rectangle

/-!
# The pointer over a stack of rectangles

The pointer remembers where the cursor is, which rectangle holds each mark, and on which one the
button went down. A `Stage` is a pointer together with the rectangles it works on, bottom to top.
Each operation says what state it leaves, what it signalled on the way and what it answers. Where
an identifier is repeated, the first rectangle that has it is meant.
-/

namespace Widgetry

structure Pointer where
  cursor : Option Point := none
  hovered : Option RectId := none
  focused : Option RectId := none
  pressedOn : Option RectId := none

namespace Pointer

/-- The holder of a mark. -/
def holder (p : Pointer) : Mark → Option RectId
  | .hover => p.hovered
  | .focus => p.focused

/-- The pointer with another holder of a mark. -/
def setHolder (p : Pointer) : Mark → Option RectId → Pointer
  | .hover, id => { p with hovered := id }
  | .focus, id => { p with focused := id }

/-- The pointer without any memory of an identifier. -/
def forget (p : Pointer) (id : RectId) : Pointer where
  cursor := p.cursor
  hovered := if p.hovered = some id then none else p.hovered
  focused := if p.focused = some id then none else p.focused
  pressedOn := if p.pressedOn = some id then none else p.pressedOn

end Pointer

/-- The first rectangle with an identifier. -/
def findRect (rects : List Rectangle) (id : RectId) : Option Rectangle := rects.find? (·.id = id)

/-- Whether a rectangle has an identifier. -/
def hasRect (rects : List Rectangle) (id : RectId) : Bool := rects.any (·.id = id)

/-- The topmost rectangle that contains a point. -/
def topmostAt (rects : List Rectangle) (p : Point) : Option RectId :=
  (rects.reverse.find? (·.contains p)).map (·.id)

/-- Gives a mark to or takes it from the first rectangle with an identifier. -/
def markRect (m : Mark) (on : Bool) (cursor : Option Point) (id : RectId) :
    List Rectangle → List Rectangle × List Signal
  | [] => ([], [])
  | r :: rest =>
    if r.id = id then
      let (r, signals) := r.mark m on cursor
      (r :: rest, signals)
    else
      let (rest, signals) := markRect m on cursor id rest
      (r :: rest, signals)

/-- `markRect` for a holder, if there is one. -/
def markHolder (m : Mark) (on : Bool) (cursor : Option Point) (holder : Option RectId)
    (rects : List Rectangle) : List Rectangle × List Signal :=
  match holder with
  | some id => markRect m on cursor id rects
  | none => (rects, [])

/-- What an operation leaves, what it signalled and what it answers. -/
structure Outcome (State Answer : Type) where
  state : State
  signals : List Signal
  answer : Answer

/-- A pointer and its rectangles, bottom to top. -/
structure Stage where
  rects : List Rectangle := []
  pointer : Pointer := {}

namespace Stage

/-- Nothing happens. -/
def refuse (s : Stage) : Outcome Stage Bool := ⟨s, [], false⟩

/-- Moves a mark to another holder, who may be nobody; the old holder loses it first. Answers
whether the holder changed. -/
def transfer (s : Stage) (m : Mark) (target : Option RectId) : Outcome Stage Bool :=
  if target = s.pointer.holder m then s.refuse
  else
    let cursor := s.pointer.cursor
    let (rects, lost) := markHolder m false cursor (s.pointer.holder m) s.rects
    let (rects, gained) := markHolder m true cursor target rects
    ⟨⟨rects, s.pointer.setHolder m target⟩, lost ++ gained ++ [.moved m target], true⟩

/-- What the cursor is over. -/
def underCursor (s : Stage) : Option RectId := s.pointer.cursor.bind (topmostAt s.rects)

/-- Looks again for what is under the cursor, for instance after rectangles moved. -/
def refresh (s : Stage) : Outcome Stage Bool := s.transfer .hover s.underCursor

/-- The cursor is at a point. -/
def cursorMoved (s : Stage) (p : Point) : Outcome Stage Bool :=
  Stage.refresh { s with pointer := { s.pointer with cursor := some p } }

/-- The cursor left the window. -/
def cursorLeft (s : Stage) : Outcome Stage Bool :=
  Stage.refresh { s with pointer := { s.pointer with cursor := none } }

/-- Hovers a rectangle as if the cursor had entered it; an unknown one is refused. -/
def mouseIn (s : Stage) (id : RectId) : Outcome Stage Bool :=
  if hasRect s.rects id then s.transfer .hover (some id) else s.refuse

/-- Takes hover from a rectangle that holds it. -/
def mouseOut (s : Stage) (id : RectId) : Outcome Stage Bool :=
  if s.pointer.hovered = some id then s.transfer .hover none else s.refuse

/-- Moves focus. A target that no rectangle has is refused, and focus stays. -/
def setFocus (s : Stage) (target : Option RectId) : Outcome Stage Bool :=
  if target = s.pointer.focused then s.refuse
  else
    match target with
    | none => s.transfer .focus none
    | some id =>
      if hasRect s.rects id then s.transfer .focus (some id) else ⟨s, [.refused id], false⟩

/-- Takes focus from a rectangle that holds it. -/
def blur (s : Stage) (id : RectId) : Outcome Stage Bool :=
  if s.pointer.focused = some id then s.setFocus none else s.refuse

/-- The event of a kind at the first rectangle with an identifier. -/
def emitAt (s : Stage) (kinds : List EventKind) (id : RectId) : List Signal :=
  match findRect s.rects id with
  | some r => kinds.map fun kind => r.emit kind s.pointer.cursor
  | none => []

/-- The button went down: focus goes to what is hovered, or to nothing. Answers what was pressed.
-/
def pressed (s : Stage) : Outcome Stage (Option RectId) :=
  let target := s.pointer.hovered
  let focused := Stage.setFocus { s with pointer := { s.pointer with pressedOn := target } } target
  let presses :=
    match target with
    | some id => focused.state.emitAt [.press] id
    | none => []
  ⟨focused.state, focused.signals ++ presses, target⟩

/-- The button went up. It is a click if it went down on the same rectangle; answers whether it
is. -/
def released (s : Stage) : Outcome Stage Bool :=
  let after : Stage := { s with pointer := { s.pointer with pressedOn := none } }
  match s.pointer.hovered with
  | none => ⟨after, [], false⟩
  | some id =>
    if hasRect s.rects id then
      let clicked := s.pointer.pressedOn = some id
      ⟨after, after.emitAt (if clicked then [.release, .click] else [.release]) id, clicked⟩
    else ⟨after, [], false⟩

end Stage

end Widgetry
