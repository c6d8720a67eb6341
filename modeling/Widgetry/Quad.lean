import Widgetry.Color
import Widgetry.Geometry

/-!
# Quads

What a scene is drawn as: axis-aligned areas of one color in device coordinates.
-/

namespace Widgetry

structure Quad where
  topLeft : Point
  bottomRight : Point
  color : Color
  deriving BEq

namespace Quad

def width (q : Quad) : Float32 := q.bottomRight.x - q.topLeft.x

def height (q : Quad) : Float32 := q.topLeft.y - q.bottomRight.y

end Quad

end Widgetry
