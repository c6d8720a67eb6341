/-!
# Points and viewports

Points are in pixels with `y` growing downwards. A viewport maps them to device coordinates, which
run from `-1` to `1` with `y` growing upwards.
-/

namespace Widgetry

/-- A place in the window. -/
structure Point where
  x : Float32
  y : Float32
  deriving BEq

instance : Inhabited Point := ⟨⟨0, 0⟩⟩

/-- The point `dx` to the right of and `dy` below a point. -/
def Point.offset (p : Point) (dx dy : Float32) : Point := ⟨p.x + dx, p.y + dy⟩

/-- The size of the area that is drawn to, in pixels. -/
structure Viewport where
  width : UInt32
  height : UInt32
  deriving DecidableEq, Repr

namespace Viewport

/-- The size of a window that asks for none. -/
def standard : Viewport := ⟨800, 600⟩

/-- Whether nothing can be seen. -/
def isEmpty (v : Viewport) : Bool := v.width == 0 || v.height == 0

/-- The length of a side for division: at least one pixel. -/
def side (n : UInt32) : Float32 := (max n 1).toFloat32

/-- A point in device coordinates. -/
def map (v : Viewport) (p : Point) : Point where
  x := 2 * p.x / side v.width - 1
  y := 1 - 2 * p.y / side v.height

end Viewport

end Widgetry
