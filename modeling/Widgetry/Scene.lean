import Widgetry.Pointer

/-!
# Scenes

A scene is a stage seen through a viewport.
-/

namespace Widgetry

structure Scene where
  viewport : Viewport := .standard
  stage : Stage := {}

namespace Scene

/-- A scene without rectangles. -/
def empty (v : Viewport) : Scene := { viewport := v }

def rects (s : Scene) : List Rectangle := s.stage.rects

def pointer (s : Scene) : Pointer := s.stage.pointer

/-- An operation of the stage as one of the scene. -/
def lift {α : Type} (s : Scene) (o : Outcome Stage α) : Outcome Scene α :=
  ⟨{ s with stage := o.state }, o.signals, o.answer⟩

/-- Puts a rectangle on top; it may take hover at once. Answers its identifier. -/
def add (s : Scene) (r : Rectangle) : Outcome Scene RectId :=
  let o := Stage.refresh { s.stage with rects := s.stage.rects ++ [r] }
  s.lift ⟨o.state, o.signals, r.id⟩

/-- Takes a rectangle out. It loses focus and hover first, so it comes back without marks, and
what was below it may gain hover. It is looked for before that and taken from the same place
after. -/
def remove (s : Scene) (id : RectId) : Outcome Scene (Option Rectangle) :=
  match s.rects.findIdx? (·.id = id) with
  | none => ⟨s, [], none⟩
  | some place =>
    let blurred := s.stage.blur id
    let left := blurred.state.mouseOut id
    let kept : Stage := ⟨left.state.rects.eraseIdx place, left.state.pointer.forget id⟩
    let refreshed := kept.refresh
    s.lift ⟨refreshed.state, blurred.signals ++ left.signals ++ refreshed.signals,
      left.state.rects[place]?⟩

/-- The first rectangle with an identifier. -/
def get? (s : Scene) (id : RectId) : Option Rectangle := findRect s.rects id

/-- Changes the first rectangle with an identifier. What is under the cursor is not looked for
again. -/
def modify (s : Scene) (id : RectId) (f : Rectangle → Rectangle) : Scene :=
  { s with stage := { s.stage with rects := change s.stage.rects } }
where
  change : List Rectangle → List Rectangle
    | [] => []
    | r :: rest => if r.id = id then f r :: rest else r :: change rest

/-- Follows the size of the window. A window without area keeps the last real size. -/
def resize (s : Scene) (v : Viewport) : Scene := if v.isEmpty then s else { s with viewport := v }

/-- The topmost rectangle at a point. -/
def rectAt (s : Scene) (p : Point) : Option RectId := topmostAt s.rects p

def refresh (s : Scene) : Outcome Scene Bool := s.lift s.stage.refresh

def cursorMoved (s : Scene) (p : Point) : Outcome Scene Bool := s.lift (s.stage.cursorMoved p)

def cursorLeft (s : Scene) : Outcome Scene Bool := s.lift s.stage.cursorLeft

def mouseIn (s : Scene) (id : RectId) : Outcome Scene Bool := s.lift (s.stage.mouseIn id)

def mouseOut (s : Scene) (id : RectId) : Outcome Scene Bool := s.lift (s.stage.mouseOut id)

def pressed (s : Scene) : Outcome Scene (Option RectId) := s.lift s.stage.pressed

def released (s : Scene) : Outcome Scene Bool := s.lift s.stage.released

def setFocus (s : Scene) (target : Option RectId) : Outcome Scene Bool :=
  s.lift (s.stage.setFocus target)

def focus (s : Scene) (id : RectId) : Outcome Scene Bool := s.setFocus (some id)

def blur (s : Scene) (id : RectId) : Outcome Scene Bool := s.lift (s.stage.blur id)

/-- The picture, bottom to top. -/
def draw (s : Scene) : List Quad := s.rects.filterMap (·.draw s.viewport)

/-- Draws a scene rectangle by rectangle on something that quads are filled into. -/
def drawOn {Canvas : Type} (s : Scene) (fill : Canvas → Quad → Canvas) (canvas : Canvas) : Canvas :=
  s.rects.foldl (fun canvas r => (r.draw s.viewport).elim canvas (fill canvas)) canvas

end Scene

end Widgetry
