import Widgetry.Gpu.Painter

/-!
# The display

A surface of a certain size and the painter that draws on it. Frames are drawn one after another,
and none leaves anything for the next. How a device is found and its surface chosen is not told
here: a display starts with a surface that is configured.
-/

namespace Widgetry.Gpu

/-- How asking the surface for a frame ends. -/
inductive Acquisition where
  | frame
  | lost
  | outdated
  | outOfMemory
  | trouble (t : SurfaceTrouble)
  deriving DecidableEq, Repr

/-- Why a frame fails. -/
inductive Failure where
  | outOfMemory
  /-- There is no capacity for what is queued. This stops the program. -/
  | overflow
  deriving DecidableEq, Repr

def Failure.message : Failure → String
  | .outOfMemory => "GPU out of memory"
  | .overflow => "attempt to multiply with overflow"

/-- What the caller does for a frame: it queues on the painter, and it may change a world of its
own. -/
def Drawing (World : Type) : Type := Painter → World → Painter × World

structure Display where
  size : Viewport
  /-- The size that the surface is configured for. -/
  configured : Viewport
  painter : Painter

/-- What comes of asking for a frame. -/
structure Rendered (World : Type) where
  display : Display
  world : World
  effects : List Effect
  /-- Whether a frame was shown. -/
  answer : Except Failure Bool

namespace Display

/-- The display of a surface that was configured for a size. -/
def init (size : Viewport) (format : String) : Display × List Effect :=
  let (painter, effects) := Painter.init format
  (⟨size, size, painter⟩, effects)

/-- What is drawn to. -/
def viewport (d : Display) : Viewport := d.configured

/-- Follows the size of the window; a window without area is ignored. -/
def resize (d : Display) (v : Viewport) : Display × List Effect :=
  if v.isEmpty then (d, []) else ({ d with size := v, configured := v }, [.call (.configure v)])

/-- Draws what is queued in a frame that was acquired. -/
def drawFrame (d : Display) (clear : Color) : Option (Display × List Effect) :=
  d.painter.prepare.map fun prepared =>
    ({ d with painter := prepared.1.clear },
      prepared.2
        ++ [.call (.encoder "frame-encoder"), .call (.beginPass "main-pass" clear true)]
        ++ prepared.1.render
        ++ [.call .finish, .call (.submit 1), .call .present])

/-- Draws a frame if one can be had, and answers whether one was shown. The caller draws once the
frame is there. A surface that was lost or is outdated is configured anew. -/
def renderFrame {World : Type} (d : Display) (acquired : Acquisition) (clear : Color)
    (draw : Drawing World) (w : World) : Rendered World :=
  match acquired with
  | .frame =>
    let queued := { d with painter := (draw d.painter w).1 }
    match queued.drawFrame clear with
    | some drawn => ⟨drawn.1, (draw d.painter w).2, .call .acquire :: drawn.2, .ok true⟩
    | none => ⟨queued, (draw d.painter w).2, [.call .acquire], .error .overflow⟩
  | .lost | .outdated => ⟨d, w, [.call .acquire, .call (.configure d.configured)], .ok false⟩
  | .outOfMemory => ⟨d, w, [.call .acquire], .error .outOfMemory⟩
  | .trouble t => ⟨d, w, [.call .acquire, .notice (.skipped t)], .ok false⟩

/-- Gives everything back. -/
def destroy (d : Display) : List Effect := d.painter.destroy ++ [.notice .released]

end Display

end Widgetry.Gpu
