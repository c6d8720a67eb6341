import Widgetry.Color
import Widgetry.Geometry
import Widgetry.Log

/-!
# What the graphics device is asked to do

Buffers are known by numbers, in the order in which they are made.
-/

namespace Widgetry.Gpu

/-- One attribute of the vertices in a buffer. -/
structure Attribute where
  location : Nat
  offset : Nat
  format : String
  deriving DecidableEq, Repr

/-- How a vertex buffer is stepped through. -/
structure VertexLayout where
  stride : Nat
  stepMode : String
  attributes : List Attribute
  deriving DecidableEq, Repr

/-- The fixed settings of drawing. -/
structure PipelineSpec where
  label : String
  vertexEntry : String
  fragmentEntry : String
  topology : String
  samples : Nat
  targets : Nat
  alphaBlending : Bool
  format : String
  vertexBuffers : List VertexLayout
  deriving DecidableEq, Repr

inductive Call where
  | createShader (label source : String)
  | createBuffer (buffer : Nat) (label : String) (size usage : Nat) (mapped : Bool)
  | unmap (buffer : Nat) (contents : List UInt8)
  | createLayout (label : String) (bindGroups immediateSize : Nat)
  | createPipeline (spec : PipelineSpec)
  | destroyBuffer (buffer : Nat)
  | writeBuffer (buffer offset : Nat) (contents : List UInt8)
  | configure (size : Viewport)
  | acquire
  | encoder (label : String)
  | beginPass (label : String) (clear : Color) (store : Bool)
  | setPipeline
  | setVertexBuffer (slot buffer offset size : Nat)
  | draw (firstVertex endVertex firstInstance endInstance : Nat)
  | finish
  | submit (count : Nat)
  | present

/-- Why no frame could be had, where nothing can be done about it. -/
inductive SurfaceTrouble where
  | timeout
  | other
  deriving DecidableEq, Repr

def SurfaceTrouble.label : SurfaceTrouble → String
  | .timeout => "Timeout"
  | .other => "Other"

/-- What is worth a line in the log. -/
inductive Notice where
  | initialized (format : String)
  | growing (capacity : Nat)
  | destroyed
  | skipped (trouble : SurfaceTrouble)
  | released

def Notice.entry : Notice → Log.Entry
  | .initialized format => ⟨.info, "Rectangle pipeline initialized (" ++ format ++ ")"⟩
  | .growing capacity => ⟨.debug, "Growing rect instance buffer to " ++ toString capacity⟩
  | .destroyed => ⟨.info, "Rectangle pipeline destroyed"⟩
  | .skipped trouble => ⟨.warn, "Surface error: " ++ trouble.label⟩
  | .released => ⟨.info, "GPU state released"⟩

inductive Effect where
  | call (c : Call)
  | notice (n : Notice)

namespace Effect

def call? : Effect → Option Call
  | .call c => some c
  | .notice _ => none

def entry? : Effect → Option Log.Entry
  | .call _ => none
  | .notice n => some n.entry

end Effect

end Widgetry.Gpu
