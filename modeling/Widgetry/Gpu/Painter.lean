import Widgetry.Gpu.Call
import Widgetry.Gpu.Capacity
import Widgetry.Gpu.Instance
import Widgetry.Gpu.Shader

/-!
# The painter

The painter owns two buffers: the corners of a unit square and the instances of the current frame.
It queues quads, copies them to the device before a pass and draws them in it with a single call.
Copying stops the program where no capacity has room for the batch: that is the answer `none`.
-/

namespace Widgetry.Gpu

structure Painter where
  unitQuad : Nat
  instances : Nat
  capacity : Nat
  uploaded : UInt32
  batch : Batch
  /-- The number of the next buffer. -/
  nextBuffer : Nat

namespace Painter

/-- Two triangles that cover the unit square. -/
def unitCorners : List Point := [⟨0, 0⟩, ⟨1, 0⟩, ⟨0, 1⟩, ⟨1, 0⟩, ⟨1, 1⟩, ⟨0, 1⟩]

def unitBytes : List UInt8 := unitCorners.flatMap fun p => singleBytes p.x ++ singleBytes p.y

def initialCapacity : Nat := 64

/-- The use of a buffer that holds vertices. -/
def vertexUsage : Nat := 32

/-- The use of a buffer that is written to. -/
def copyUsage : Nat := 8

def pipelineSpec (format : String) : PipelineSpec where
  label := "rect-pipeline"
  vertexEntry := "vs_main"
  fragmentEntry := "fs_main"
  topology := "TriangleList"
  samples := 1
  targets := 1
  alphaBlending := true
  format
  vertexBuffers := [
    ⟨8, "Vertex", [⟨0, 0, "Float32x2"⟩]⟩,
    ⟨Instance.byteSize, "Instance",
      [⟨1, 0, "Float32x2"⟩, ⟨2, 8, "Float32x2"⟩, ⟨3, 16, "Float32x4"⟩]⟩]

/-- Makes a buffer for instances. -/
def createInstances (buffer capacity : Nat) : Call :=
  .createBuffer buffer "rect-instances" (capacity * Instance.byteSize) (vertexUsage + copyUsage)
    false

/-- A painter for a surface format. -/
def init (format : String) : Painter × List Effect :=
  ({  unitQuad := 0
      instances := 1
      capacity := initialCapacity
      uploaded := 0
      batch := []
      nextBuffer := 2 },
    [.call (.createShader "rect.wgsl" shaderSource),
      .call (.createBuffer 0 "rect-unit-quad" unitBytes.length vertexUsage true),
      .call (.unmap 0 unitBytes),
      .call (.createLayout "rect-pl" 0 0),
      .call (.createPipeline (pipelineSpec format)),
      .notice (.initialized format),
      .call (createInstances 1 initialCapacity)])

/-- Gives the buffers back. -/
def destroy (p : Painter) : List Effect :=
  [.call (.destroyBuffer p.unitQuad), .call (.destroyBuffer p.instances), .notice .destroyed]

/-- Queues quads. -/
def fill (p : Painter) (quads : List Quad) : Painter := { p with batch := p.batch.fill quads }

/-- Queues a single quad. -/
def push (p : Painter) (q : Quad) : Painter := { p with batch := p.batch.push q }

/-- Forgets what is queued and what was copied. -/
def clear (p : Painter) : Painter := { p with batch := [], uploaded := 0 }

/-- The painter with a new buffer for instances in place of the old one. -/
def grow (p : Painter) (capacity : Nat) : Painter × List Effect :=
  ({ p with instances := p.nextBuffer, capacity, nextBuffer := p.nextBuffer + 1 },
    [.notice (.growing capacity), .call (.destroyBuffer p.instances),
      .call (createInstances p.nextBuffer capacity)])

/-- Makes room for the batch: a buffer that is too small gives way to a larger one. -/
def reserve (p : Painter) : Option (Painter × List Effect) :=
  if p.batch.length ≤ p.capacity then some (p, [])
  else (grownCapacity p.capacity p.batch.length).map p.grow

/-- Copies the batch to a buffer that has room for it. -/
def upload (p : Painter) : Painter × List Effect :=
  ({ p with uploaded := p.batch.length.toUInt32 },
    [.call (.writeBuffer p.instances 0 p.batch.bytes)])

/-- Copies the batch to the device. -/
def prepare (p : Painter) : Option (Painter × List Effect) :=
  if p.batch.isEmpty then some ({ p with uploaded := 0 }, [])
  else p.reserve.map fun roomy => (roomy.1.upload.1, roomy.2 ++ roomy.1.upload.2)

/-- Draws what was copied. -/
def render (p : Painter) : List Effect :=
  if p.uploaded = 0 then []
  else
    [.call .setPipeline,
      .call (.setVertexBuffer 0 p.unitQuad 0 unitBytes.length),
      .call (.setVertexBuffer 1 p.instances 0 (p.uploaded.toNat * Instance.byteSize)),
      .call (.draw 0 unitCorners.length 0 p.uploaded.toNat)]

end Painter

end Widgetry.Gpu
