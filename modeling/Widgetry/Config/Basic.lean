import Widgetry.Disk
import Widgetry.Json.Fault
import Widgetry.Scene

/-!
# Configurations

A configuration names the window, the color it is cleared with and the rectangles in it. Not every
configuration is valid: a window or rectangle without area is refused, both by `validate` and when
the scene is built.
-/

namespace Widgetry

/-- What can go wrong with a configuration. -/
inductive Error where
  | disk (path : String) (fault : Disk.Fault)
  | json (e : Json.Error)
  | color (e : Color.Malformed)
  | size (width height : UInt32)

namespace Error

def message : Error → String
  | .disk path fault => "config I/O failed for " ++ path ++ ": " ++ fault.message
  | .json e => "malformed config: " ++ e.message
  | .color e => e.message
  | .size width height =>
    "invalid size " ++ toString width.toNat ++ "x" ++ toString height.toNat
      ++ ": both dimensions must be non-zero"

/-- The text of the underlying error, if there is one. -/
def cause? : Error → Option String
  | .disk _ fault => some fault.message
  | .json e => some e.message
  | _ => none

end Error

structure WindowConfig where
  title : String := "rectkit"
  width : UInt32 := Viewport.standard.width
  height : UInt32 := Viewport.standard.height
  deriving BEq

/-- A rectangle to be made. -/
structure RectSpec where
  x : Float32
  y : Float32
  width : UInt32
  height : UInt32
  color : Option Color := none
  hoverColor : Option Color := none
  focusColor : Option Color := none
  deriving BEq

namespace RectSpec

/-- The size, unless it has no area. -/
def checkSize (s : RectSpec) : Except Error Unit :=
  if s.width = 0 ∨ s.height = 0 then .error (.size s.width s.height) else .ok ()

/-- The rectangle that a specification describes. -/
def rectangle (s : RectSpec) (id : RectId) : Rectangle :=
  let plain := Rectangle.make id ⟨s.x, s.y⟩ s.width s.height
  let filled := (s.color.map plain.withColor).getD plain
  let hoverable := (s.hoverColor.map filled.withHoverColor).getD filled
  (s.focusColor.map hoverable.withFocusColor).getD hoverable

/-- Makes the rectangle. -/
def build (s : RectSpec) (id : RectId) : Except Error Rectangle := do
  s.checkSize
  return s.rectangle id

end RectSpec

structure Config where
  window : WindowConfig
  clearColor : Color
  rectangles : List RectSpec
  deriving BEq

namespace Config

/-- A rectangle of the standard configuration. -/
def standardSpec (x y : Float32) (fill : Color) : RectSpec where
  x
  y
  width := 160
  height := 100
  color := some fill

/-- The configuration of a program that is given none: four rectangles, of which the last overlaps
the first two. -/
def standard : Config where
  window := {}
  clearColor := .rgb 0.08 0.09 0.11
  rectangles := [
    standardSpec 60 60 .standardFill,
    standardSpec 260 60 (.rgb 0.40 0.55 0.95),
    standardSpec 460 60 (.rgb 0.35 0.90 0.35),
    standardSpec 180 120 (.rgb 0.95 0.85 0.30)]

def viewport (c : Config) : Viewport := ⟨c.window.width, c.window.height⟩

/-- Checks specifications up to the first without area. -/
def checkSpecs : List RectSpec → Except Error Unit
  | [] => .ok ()
  | s :: rest => do
    s.checkSize
    checkSpecs rest

/-- Checks the window, then the rectangles in order. -/
def validate (c : Config) : Except Error Unit :=
  if c.viewport.isEmpty then .error (.size c.window.width c.window.height)
  else checkSpecs c.rectangles

/-- Adds rectangles for specifications, up to the first without area. The identifiers are given by
their place. -/
def addSpecs (name : Nat → RectId) : Nat → List RectSpec → Scene → Except Error Scene
  | _, [], scene => .ok scene
  | index, s :: rest, scene => do
    let r ← s.build (name index)
    addSpecs name (index + 1) rest (scene.add r).state

/-- The scene that a configuration describes, rectangles stacked in order. -/
def buildScene (c : Config) (name : Nat → RectId) : Except Error Scene :=
  addSpecs name 0 c.rectangles (Scene.empty c.viewport)

end Config

end Widgetry
