import Widgetry.Quad

/-!
# Instances

A quad as the graphics device takes it: a corner, a signed extent and a color, in 32 bytes.
-/

namespace Widgetry.Gpu

structure Instance where
  topLeft : Point
  /-- From the top left corner to the bottom right one. -/
  size : Point
  color : Color

/-- The bytes of a number, the lowest first. -/
def singleBytes (x : Float32) : List UInt8 :=
  let bits := x.toBits
  [bits.toUInt8, (bits >>> 8).toUInt8, (bits >>> 16).toUInt8, (bits >>> 24).toUInt8]

namespace Instance

/-- Bytes of an instance. -/
def byteSize : Nat := 32

def ofQuad (q : Quad) : Instance where
  topLeft := q.topLeft
  size := ⟨q.bottomRight.x - q.topLeft.x, q.bottomRight.y - q.topLeft.y⟩
  color := q.color

/-- The numbers of an instance in the order of its bytes. -/
def components (i : Instance) : List Float32 :=
  [i.topLeft.x, i.topLeft.y, i.size.x, i.size.y, i.color.r, i.color.g, i.color.b, i.color.a]

def bytes (i : Instance) : List UInt8 := i.components.flatMap singleBytes

end Instance

/-- The instances queued for a frame, in order. -/
abbrev Batch : Type := List Instance

namespace Batch

/-- Queues quads behind the others. -/
def fill (b : Batch) (quads : List Quad) : Batch := b ++ quads.map Instance.ofQuad

/-- Queues a single quad. -/
def push (b : Batch) (q : Quad) : Batch := b.fill [q]

def bytes (b : Batch) : List UInt8 := b.flatMap Instance.bytes

end Batch

end Widgetry.Gpu
