import Mathlib.Data.List.Nodup
import Widgetry.App.Basic
import Widgetry.Proofs.Frames
import Widgetry.Proofs.Picture

/-!
# Buffers are given back once

A buffer is made, worked with and destroyed by separate calls. `Orderly` says of a sequence of
calls that each refers only to buffers that are there when it is issued. A painter always holds two
of them: the corners and the current instances, also after frames that fail. When the application
goes it gives both back, and without a display it makes no calls.
-/

namespace Widgetry

namespace Gpu

/-- The buffers that calls make. -/
def created (cs : List Call) : List Nat :=
  cs.filterMap fun
    | .createBuffer buffer .. => some buffer
    | _ => none

/-- The buffers that calls destroy, as often as they do. -/
def destroyed (cs : List Call) : List Nat :=
  cs.filterMap fun
    | .destroyBuffer buffer => some buffer
    | _ => none

/-- The buffers that are there after some calls. -/
def live (cs : List Call) : List Nat := (created cs).filter (· ∉ destroyed cs)

@[simp] theorem created_append (a b : List Call) : created (a ++ b) = created a ++ created b :=
  List.filterMap_append

@[simp] theorem destroyed_append (a b : List Call) :
    destroyed (a ++ b) = destroyed a ++ destroyed b :=
  List.filterMap_append

theorem mem_live {cs : List Call} {b : Nat} : b ∈ live cs ↔ b ∈ created cs ∧ b ∉ destroyed cs := by
  simp [live]

/-- The buffers that a call refers to after others, other than one that it makes. A draw refers to
all that are bound in its pass. -/
def RefersTo (past : List Call) : Call → Nat → Prop
  | .unmap buffer _, b => b = buffer
  | .destroyBuffer buffer, b => b = buffer
  | .writeBuffer buffer _ _, b => b = buffer
  | .setVertexBuffer _ buffer _ _, b => b = buffer
  | .draw .., b => ∃ slot s, bound past slot = some s ∧ s.buffer = b
  | _, _ => False

/-- What a call may do after others: make a buffer under a number of its own, and refer to those
that are there. -/
structure Permitted (past : List Call) (c : Call) : Prop where
  makes : ∀ b ∈ created [c], b ∉ created past
  refers : ∀ b, RefersTo past c b → b ∈ live past

/-- Each call was permitted when it was issued. -/
abbrev Orderly (cs : List Call) : Prop := Throughout Permitted cs

/-- A call that neither makes nor destroys a buffer. -/
def Call.Keeps (c : Call) : Prop := created [c] = [] ∧ destroyed [c] = []

/-- Whether a call has nothing to do with buffers. -/
def Call.isPlain : Call → Bool
  | .createBuffer .. | .destroyBuffer .. => false
  | .unmap .. | .writeBuffer .. | .setVertexBuffer .. | .draw .. => false
  | _ => true

theorem Call.keeps_of_isPlain {c : Call} (h : c.isPlain = true) :
    c.Keeps ∧ ∀ past b, ¬ RefersTo past c b := by
  cases c with
  | createBuffer => cases h
  | destroyBuffer => cases h
  | unmap => cases h
  | writeBuffer => cases h
  | setVertexBuffer => cases h
  | draw => cases h
  | _ => exact ⟨⟨rfl, rfl⟩, fun _ _ hb => by cases hb⟩

namespace Orderly

variable {cs : List Call} {c : Call} {b : Nat}

theorem destroys (hc : Permitted cs c) (hb : b ∈ destroyed [c]) : b ∈ live cs := by
  refine hc.refers b ?_
  cases c with
  | destroyBuffer buffer => exact List.mem_singleton.mp hb
  | _ => cases hb

theorem created_singleton_nodup (c : Call) : (created [c]).Nodup := by
  cases c <;> simp [created]

theorem destroyed_singleton_nodup (c : Call) : (destroyed [c]).Nodup := by
  cases c <;> simp [destroyed]

theorem created_nodup (h : Orderly cs) : (created cs).Nodup := by
  induction h with
  | nil => exact List.nodup_nil
  | @concat cs c _ hc ih =>
    rw [created_append]
    refine ih.append (created_singleton_nodup c) ?_
    intro b hb hnew
    exact hc.makes b hnew hb

theorem destroyed_nodup (h : Orderly cs) : (destroyed cs).Nodup := by
  induction h with
  | nil => exact List.nodup_nil
  | @concat cs c _ hc ih =>
    rw [destroyed_append]
    refine ih.append (destroyed_singleton_nodup c) ?_
    intro b hb hnew
    exact (mem_live.mp (destroys hc hnew)).2 hb

theorem created_of_destroyed (h : Orderly cs) (hb : b ∈ destroyed cs) : b ∈ created cs := by
  induction h with
  | nil => cases hb
  | @concat cs c _ hc ih =>
    rw [created_append, List.mem_append]
    rw [destroyed_append, List.mem_append] at hb
    rcases hb with hb | hb
    · exact .inl (ih hb)
    · exact .inl (mem_live.mp (destroys hc hb)).1

theorem live_nodup (h : Orderly cs) : (live cs).Nodup := h.created_nodup.filter _

theorem create (h : Orderly cs) (hb : b ∉ created cs) (label : String) (size usage : Nat)
    (mapped : Bool) : Orderly (cs ++ [.createBuffer b label size usage mapped]) := by
  refine h.concat ⟨?_, ?_⟩
  · intro x hx
    rw [List.mem_singleton.mp hx]
    exact hb
  · intro x hx
    cases hx

theorem destroy (h : Orderly cs) (hb : b ∈ live cs) : Orderly (cs ++ [.destroyBuffer b]) := by
  refine h.concat ⟨?_, ?_⟩
  · intro x hx
    cases hx
  · intro x hx
    rw [hx]
    exact hb

theorem keep (h : Orderly cs) (hc : c.Keeps)
    (hrefers : ∀ x, RefersTo cs c x → x ∈ live cs) : Orderly (cs ++ [c]) := by
  refine h.concat ⟨?_, hrefers⟩
  intro x hx
  rw [hc.1] at hx
  cases hx

end Orderly

section Live

variable {cs : List Call} {c : Call} {b : Nat}

theorem live_create (h : Orderly cs) (hb : b ∉ created cs) (label : String) (size usage : Nat)
    (mapped : Bool) : live (cs ++ [.createBuffer b label size usage mapped]) = live cs ++ [b] := by
  have hnot : b ∉ destroyed cs := fun hd => hb (h.created_of_destroyed hd)
  have hcreated : created [.createBuffer b label size usage mapped] = [b] := rfl
  have hdestroyed : destroyed [.createBuffer b label size usage mapped] = [] := rfl
  rw [live, created_append, destroyed_append, hcreated, hdestroyed, List.append_nil,
    List.filter_append]
  simp [live, hnot]

theorem live_destroy (cs : List Call) (b : Nat) :
    live (cs ++ [.destroyBuffer b]) = (live cs).filter (· ≠ b) := by
  have hcreated : created [.destroyBuffer b] = [] := rfl
  have hdestroyed : destroyed [.destroyBuffer b] = [b] := rfl
  rw [live, created_append, destroyed_append, hcreated, hdestroyed, List.append_nil, live,
    List.filter_filter]
  refine List.filter_congr ?_
  intro x _
  simp [not_or, and_comm]

theorem live_keep (hc : c.Keeps) : live (cs ++ [c]) = live cs := by
  rw [live, created_append, destroyed_append, hc.1, hc.2, List.append_nil, List.append_nil, live]

end Live

namespace Painter

variable {p q : Painter} {cs : List Call} {c : Call} {effects : List Effect}

/-- After some calls, all in order, the buffers that are there are the corners and the instances of
a painter, and its next number is a new one. -/
structure Holds (p : Painter) (cs : List Call) : Prop where
  orderly : Orderly cs
  live : live cs = [p.unitQuad, p.instances]
  numbered : ∀ b ∈ created cs, b < p.nextBuffer

theorem Holds.apart (h : p.Holds cs) : p.unitQuad ≠ p.instances := by
  have hnodup := h.orderly.live_nodup
  rw [h.live] at hnodup
  simpa using hnodup

theorem Holds.keep (h : p.Holds cs) (hc : c.Keeps)
    (hrefers : ∀ b, RefersTo cs c b → b = p.unitQuad ∨ b = p.instances) :
    p.Holds (cs ++ [c]) := by
  refine ⟨h.orderly.keep hc ?_, (live_keep hc).trans h.live, ?_⟩
  · intro b hb
    rw [h.live]
    simpa using hrefers b hb
  · intro b hb
    rw [created_append, hc.1, List.append_nil] at hb
    exact h.numbered b hb

theorem Holds.pass (h : p.Holds cs) (block : List Call) (hblock : block.all Call.isPlain = true) :
    p.Holds (cs ++ block) := by
  induction block generalizing cs with
  | nil => simpa using h
  | cons c rest ih =>
    rw [List.all_cons, Bool.and_eq_true] at hblock
    obtain ⟨hkeeps, hnone⟩ := Call.keeps_of_isPlain hblock.1
    have hnext := ih (h.keep hkeeps fun b hb => absurd hb (hnone _ b)) hblock.2
    simpa using hnext

theorem init_holds (format : String) : (init format).1.Holds (calls (init format).2) := by
  have hshader : Orderly [.createShader "rect.wgsl" shaderSource] :=
    Orderly.keep .nil ⟨rfl, rfl⟩ fun x hx => by cases hx
  have hcorners := hshader.create (b := 0) (by simp [created]) "rect-unit-quad" unitBytes.length
    vertexUsage true
  have hunmap := hcorners.keep (c := .unmap 0 unitBytes) ⟨rfl, rfl⟩ (by
    intro x hx
    rw [hx]
    decide)
  have hlayout := hunmap.keep (c := .createLayout "rect-pl" 0 0) ⟨rfl, rfl⟩ fun x hx => by cases hx
  have hpipeline := hlayout.keep (c := .createPipeline (pipelineSpec format)) ⟨rfl, rfl⟩
    fun x hx => by cases hx
  have hinstances := hpipeline.create (b := 1) (by simp [created]) "rect-instances"
    (initialCapacity * Instance.byteSize) (vertexUsage + copyUsage) false
  have hcreated : created (calls (init format).2) = [0, 1] := rfl
  refine ⟨hinstances, rfl, ?_⟩
  rw [hcreated]
  show ∀ b ∈ [0, 1], b < 2
  decide

/-- The old buffer goes before the new one is made under the next number. -/
theorem grow_holds (h : p.Holds cs) (capacity : Nat) :
    (p.grow capacity).1.Holds (cs ++ calls (p.grow capacity).2) := by
  have hgone := h.orderly.destroy (b := p.instances) (by simp [h.live])
  have hcreated : created (cs ++ [.destroyBuffer p.instances]) = created cs := by
    simp [created]
  have hnew : p.nextBuffer ∉ created (cs ++ [.destroyBuffer p.instances]) := by
    rw [hcreated]
    exact fun hb => Nat.lt_irrefl _ (h.numbered _ hb)
  have hmade := hgone.create hnew "rect-instances" (capacity * Instance.byteSize)
    (vertexUsage + copyUsage) false
  have hlive := live_create hgone hnew "rect-instances" (capacity * Instance.byteSize)
    (vertexUsage + copyUsage) false
  rw [live_destroy, h.live] at hlive
  have hcalls : cs ++ calls (p.grow capacity).2 =
      cs ++ [.destroyBuffer p.instances] ++ [createInstances p.nextBuffer capacity] := by
    simp [grow]
  rw [hcalls]
  refine ⟨hmade, ?_, ?_⟩
  · rw [createInstances, hlive]
    simp [grow, h.apart]
  · intro b hb
    rw [created_append, hcreated, List.mem_append] at hb
    rcases hb with hb | hb
    · exact Nat.lt_succ_of_lt (h.numbered b hb)
    · rw [List.mem_singleton.mp hb]
      exact Nat.lt_succ_self _

theorem prepare_holds (h : p.Holds cs) (hp : p.prepare = some (q, effects)) :
    q.Holds (cs ++ calls effects) := by
  rcases prepare_inv hp with ⟨_, hq, heffects⟩ | ⟨roomy, grown, _, hreserve, hq, heffects⟩
  · rw [hq, heffects, calls_nil, List.append_nil]
    exact ⟨h.orderly, h.live, h.numbered⟩
  · have hroomy : roomy.Holds (cs ++ calls grown) := reserve_preserves h (grow_holds h) hreserve
    have hw := hroomy.keep (c := .writeBuffer roomy.instances 0 roomy.batch.bytes) ⟨rfl, rfl⟩
      fun b hb => .inr hb
    rw [hq, heffects, calls_append, ← List.append_assoc]
    exact ⟨hw.orderly, hw.live, hw.numbered⟩

/-- A pass starts with nothing bound, so what is drawn from is what was bound in it. -/
theorem render_holds (h : p.Holds cs) (hbound : ∀ slot, bound cs slot = none) :
    p.Holds (cs ++ calls p.render) := by
  by_cases hz : p.uploaded.toNat = 0
  · rw [render_nil hz, List.append_nil]
    exact h
  · have h1 := h.keep (c := .setPipeline) ⟨rfl, rfl⟩ fun b hb => by cases hb
    have h2 := h1.keep (c := .setVertexBuffer 0 p.unitQuad 0 unitBytes.length) ⟨rfl, rfl⟩
      fun b hb => .inl hb
    have h3 := h2.keep
      (c := .setVertexBuffer 1 p.instances 0 (p.uploaded.toNat * Instance.byteSize)) ⟨rfl, rfl⟩
      fun b hb => .inr hb
    have h4 := h3.keep (c := .draw 0 6 0 p.uploaded.toNat) ⟨rfl, rfl⟩ (by
      intro b hb
      obtain ⟨slot, s, hs, hsb⟩ := hb
      simp only [bound_append, hbound, List.foldl_cons, List.foldl_nil, Call.boundAfter] at hs
      split at hs
      · cases hs
        exact .inr hsb.symm
      · split at hs
        · cases hs
          exact .inl hsb.symm
        · cases hs)
    rw [render_calls hz]
    simpa using h4

theorem destroy_orderly (h : p.Holds cs) :
    Orderly (cs ++ calls p.destroy) ∧ Gpu.live (cs ++ calls p.destroy) = [] := by
  have hunit := h.orderly.destroy (b := p.unitQuad) (by simp [h.live])
  have hlive : Gpu.live (cs ++ [.destroyBuffer p.unitQuad]) = [p.instances] := by
    rw [live_destroy, h.live]
    simp [h.apart.symm]
  have hboth := hunit.destroy (b := p.instances) (by simp [hlive])
  have hcalls : cs ++ calls p.destroy =
      cs ++ [.destroyBuffer p.unitQuad] ++ [.destroyBuffer p.instances] := by
    simp [destroy]
  rw [hcalls]
  refine ⟨hboth, ?_⟩
  rw [live_destroy, hlive]
  simp

end Painter

namespace Display

variable {d : Display} {cs : List Call}

theorem drawFrame_holds (h : d.painter.Holds cs) {d' : Display} {clear : Color}
    {effects : List Effect} (hd : d.drawFrame clear = some (d', effects)) :
    d'.painter.Holds (cs ++ calls effects) := by
  obtain ⟨prepared, copied, hp, hd', hcalls⟩ := drawFrame_inv hd
  have hprepare := Painter.prepare_holds h hp
  have hbegin := hprepare.pass [.encoder "frame-encoder", .beginPass "main-pass" clear true] rfl
  have hrender := Painter.render_holds hbegin (by
    intro slot
    rw [bound_append]
    rfl)
  have hend := hrender.pass [.finish, .submit 1, .present] rfl
  simp only [List.append_assoc] at hend
  rw [hd', hcalls]
  simp only [List.append_assoc]
  exact ⟨hend.orderly, hend.live, hend.numbered⟩

/-- Whatever the caller queues, a frame leaves its painter in charge of its buffers, also where it
fails. -/
theorem renderFrame_holds {World : Type} (h : d.painter.Holds cs) (acquired : Acquisition)
    (clear : Color) (draw : Drawing World) (w : World)
    (hdraw : (draw d.painter w).1.Holds cs) :
    (d.renderFrame acquired clear draw w).display.painter.Holds
      (cs ++ calls (d.renderFrame acquired clear draw w).effects) := by
  by_cases hacquired : acquired = .frame
  · rw [hacquired]
    rcases (d.renderFrame_acquired clear draw w).2 with
      ⟨_, drawn, hdrawn, hcalls⟩ | ⟨_, _, hdisplay, hcalls⟩
    · rw [hcalls]
      have hframe := drawFrame_holds (hdraw.pass [.acquire] rfl) hdrawn
      simpa using hframe
    · rw [hdisplay, hcalls]
      exact hdraw.pass [.acquire] rfl
  · obtain ⟨hdisplay, _, hcalls, _⟩ := renderFrame_skipped hacquired draw w
    rw [hdisplay, hcalls]
    refine h.pass _ ?_
    split <;> rfl

theorem resize_holds (h : d.painter.Holds cs) (v : Viewport) :
    (d.resize v).1.painter.Holds (cs ++ calls (d.resize v).2) := by
  unfold resize
  split
  · simpa using h
  · exact h.pass [.configure v] rfl

end Display

end Gpu

/-- What is queued of a scene is its picture. -/
theorem Scene.drawing_eq (s : Scene) (p : Gpu.Painter) : s.drawing p () = (p.fill s.draw, ()) := by
  rw [drawing, drawOn_eq, Gpu.Painter.foldl_push]

theorem Scene.drawing_holds (s : Scene) {p : Gpu.Painter} {cs : List Gpu.Call} (h : p.Holds cs) :
    (s.drawing p ()).1.Holds cs := by
  rw [drawing_eq]
  exact ⟨h.orderly, h.live, h.numbered⟩

namespace App

open Gpu (Call calls created destroyed live Orderly)

variable {a : App} {cs : List Call}

/-- The calls among the effects of an application. -/
def gpuCalls (effects : List Effect) : List Call := effects.filterMap Effect.call?

@[simp] theorem gpuCalls_append (x y : List Effect) :
    gpuCalls (x ++ y) = gpuCalls x ++ gpuCalls y :=
  List.filterMap_append

@[simp] theorem gpuCalls_gpu (effects : List Gpu.Effect) :
    gpuCalls (effects.map .gpu) = calls effects := by
  rw [gpuCalls, List.filterMap_map]
  rfl

@[simp] theorem gpuCalls_scene (signals : List Signal) : gpuCalls (signals.map .scene) = [] := by
  rw [gpuCalls, List.filterMap_map, List.filterMap_eq_nil_iff]
  intro s _
  rfl

@[simp] theorem gpuCalls_ofAnswer (answer : Except Gpu.Failure Bool) :
    gpuCalls (Effect.ofAnswer answer) = [] := by
  cases answer with
  | ok shown => rfl
  | error failure => cases failure <;> rfl

/-- What reaches an application: window events, each with how the surface answers if it is asked,
and that it is about to go. -/
inductive Input where
  | event (acquired : Gpu.Acquisition) (e : WindowEvent)
  | exiting

def respond (a : App) : Input → App × List Effect
  | .event acquired e => a.handle acquired e
  | .exiting => a.exiting

/-- Inputs one after the other. -/
def serve (a : App) : List Input → App × List Effect
  | [] => (a, [])
  | input :: rest =>
    (((a.respond input).1.serve rest).1, (a.respond input).2 ++ ((a.respond input).1.serve rest).2)

/-- What the pointer does asks nothing of the device. -/
theorem gpuCalls_point (a : App) (action : PointerAction) : gpuCalls (a.point action).2 = [] := by
  simp only [point, gpuCalls_append, gpuCalls_scene, List.nil_append]
  split <;> rfl

theorem resizeDisplay_scene (a : App) (v : Viewport) : (a.resizeDisplay v).1.scene = a.scene := by
  unfold resizeDisplay
  split <;> rfl

/-- As far as sizes and the display go, an event leaves them alone, changes the size or draws a
frame. -/
theorem handle_cases (a : App) (acquired : Gpu.Acquisition) (e : WindowEvent) :
    ((∀ v, e ≠ .resized v) ∧ e ≠ .redrawRequested ∧
      (a.handle acquired e).1.display = a.display ∧
      (a.handle acquired e).1.scene.viewport = a.scene.viewport ∧
      gpuCalls (a.handle acquired e).2 = []) ∨
    (∃ v, e = .resized v ∧
      (a.handle acquired e).1.display = (a.resizeDisplay v).1.display ∧
      (a.handle acquired e).1.scene = a.scene.resize v ∧
      gpuCalls (a.handle acquired e).2 = gpuCalls (a.resizeDisplay v).2) ∨
    (e = .redrawRequested ∧ a.handle acquired e = a.redraw acquired) := by
  unfold handle
  split
  case h_1 action haction =>
    refine .inl ⟨?_, ?_, rfl, by cases action <;> rfl, a.gpuCalls_point action⟩
    · intro v he
      rw [he] at haction
      cases haction
    · intro he
      rw [he] at haction
      cases haction
  case h_2 =>
    split
    case h_3 v _ =>
      refine .inr (.inl ⟨v, rfl, rfl, ?_, ?_⟩)
      · show (a.resizeDisplay v).1.scene.resize v = a.scene.resize v
        rw [resizeDisplay_scene]
      · rw [gpuCalls_append]
        exact List.append_nil _
    case h_5 => exact .inr (.inr ⟨rfl, rfl⟩)
    case h_6 hsize _ hframe => exact .inl ⟨hsize, hframe, rfl, rfl, rfl⟩
    all_goals exact .inl ⟨by simp, by simp, rfl, rfl, rfl⟩

/-- Without a display nothing is asked of the device. -/
theorem respond_none (hd : a.display = none) (input : Input) :
    (a.respond input).1.display = none ∧ gpuCalls (a.respond input).2 = [] := by
  cases input with
  | event acquired e =>
    show (a.handle acquired e).1.display = none ∧ gpuCalls (a.handle acquired e).2 = []
    rcases a.handle_cases acquired e with ⟨_, _, hsame, _, hcalls⟩ | ⟨v, _, hsame, _, hcalls⟩ |
      ⟨_, hredraw⟩
    · exact ⟨hsame.trans hd, hcalls⟩
    · rw [hsame, hcalls, resizeDisplay, hd]
      exact ⟨hd, rfl⟩
    · rw [hredraw, redraw, hd]
      exact ⟨hd, rfl⟩
  | exiting =>
    rw [respond, exiting, hd]
    exact ⟨rfl, rfl⟩

theorem serve_none (hd : a.display = none) (inputs : List Input) :
    (a.serve inputs).1.display = none ∧ gpuCalls (a.serve inputs).2 = [] := by
  induction inputs generalizing a with
  | nil => exact ⟨hd, rfl⟩
  | cons input rest ih =>
    obtain ⟨hnone, hcalls⟩ := respond_none hd input
    obtain ⟨hlast, hlater⟩ := ih hnone
    rw [serve, gpuCalls_append, hcalls, hlater]
    exact ⟨hlast, rfl⟩

/-- An event leaves a display in charge of its buffers. -/
theorem handle_holds {d : Gpu.Display} (hd : a.display = some d) (h : d.painter.Holds cs)
    (acquired : Gpu.Acquisition) (e : WindowEvent) :
    ∃ d', (a.handle acquired e).1.display = some d' ∧
      d'.painter.Holds (cs ++ gpuCalls (a.handle acquired e).2) := by
  rcases a.handle_cases acquired e with ⟨_, _, hsame, _, hcalls⟩ | ⟨v, _, hsame, _, hcalls⟩ |
    ⟨_, hredraw⟩
  · refine ⟨d, hsame.trans hd, ?_⟩
    rw [hcalls, List.append_nil]
    exact h
  · rw [hsame, hcalls, resizeDisplay, hd, gpuCalls_gpu]
    exact ⟨_, rfl, Gpu.Display.resize_holds h v⟩
  · rw [hredraw, redraw, hd, gpuCalls_append, gpuCalls_gpu, gpuCalls_ofAnswer, List.append_nil]
    exact ⟨_, rfl, Gpu.Display.renderFrame_holds h acquired a.clearColor a.scene.drawing ()
      (a.scene.drawing_holds h)⟩

theorem exiting_gone {d : Gpu.Display} (hd : a.display = some d) (h : d.painter.Holds cs) :
    a.exiting.1.display = none ∧ Orderly (cs ++ gpuCalls a.exiting.2) ∧
      live (cs ++ gpuCalls a.exiting.2) = [] := by
  have hcalls : calls d.destroy = calls d.painter.destroy := by
    rw [Gpu.Display.destroy, Gpu.calls_append]
    exact List.append_nil _
  rw [exiting, hd, gpuCalls_gpu, hcalls]
  exact ⟨rfl, Gpu.Painter.destroy_orderly h⟩

theorem serve_holds {d : Gpu.Display} (hd : a.display = some d) (h : d.painter.Holds cs)
    {inputs : List Input} (hin : .exiting ∉ inputs) :
    ∃ d', (a.serve inputs).1.display = some d' ∧
      d'.painter.Holds (cs ++ gpuCalls (a.serve inputs).2) := by
  induction inputs generalizing a cs d with
  | nil => exact ⟨d, hd, by simpa [serve, gpuCalls] using h⟩
  | cons input rest ih =>
    rw [List.mem_cons, not_or] at hin
    cases input with
    | exiting => exact absurd rfl hin.1
    | event acquired e =>
      obtain ⟨d', hd', h'⟩ := handle_holds hd h acquired e
      rw [serve, gpuCalls_append, ← List.append_assoc]
      exact ih hd' h' hin.2

theorem serve_gone {d : Gpu.Display} (hd : a.display = some d) (h : d.painter.Holds cs)
    {inputs : List Input} (hin : .exiting ∈ inputs) :
    (a.serve inputs).1.display = none ∧ Orderly (cs ++ gpuCalls (a.serve inputs).2) ∧
      live (cs ++ gpuCalls (a.serve inputs).2) = [] := by
  induction inputs generalizing a cs d with
  | nil => cases hin
  | cons input rest ih =>
    rw [serve, gpuCalls_append, ← List.append_assoc]
    cases input with
    | exiting =>
      obtain ⟨hnone, hgone⟩ := exiting_gone hd h
      obtain ⟨hlast, hlater⟩ := serve_none hnone rest
      simp only [respond, hlater, List.append_nil]
      exact ⟨hlast, hgone⟩
    | event acquired e =>
      obtain ⟨d', hd', h'⟩ := handle_holds hd h acquired e
      exact ih hd' h' (by simpa using hin)

/-- Over any run of an application whose display has a new painter: no number is used for two
buffers and no buffer is destroyed twice; every call that destroys a buffer, writes to it, binds it
or draws from it finds it there, however the surface answers. Before the application goes, the
corners and the current instances are all that is there. Once it goes, every buffer that was ever
made has been destroyed exactly once, and whatever comes later asks nothing of the device. -/
theorem buffers_are_used_linearly (a : App) (size configured : Viewport) (format : String)
    (inputs : List Input) :
    let painter := Gpu.Painter.init format
    let start := { a with display := some ⟨size, configured, painter.1⟩ }
    let cs := calls painter.2 ++ gpuCalls (start.serve inputs).2
    (created cs).Nodup ∧ (destroyed cs).Nodup ∧
    (∀ past c rest b, cs = past ++ c :: rest → Gpu.RefersTo past c b →
      b ∈ created past ∧ b ∉ destroyed past) ∧
    (.exiting ∉ inputs → ∃ d, (start.serve inputs).1.display = some d ∧
      d.painter.unitQuad ≠ d.painter.instances ∧
      live cs = [d.painter.unitQuad, d.painter.instances]) ∧
    (.exiting ∈ inputs → (∀ b ∈ created cs, (destroyed cs).count b = 1) ∧
      ∀ later, gpuCalls ((start.serve inputs).1.serve later).2 = []) := by
  intro painter start cs
  have hd : start.display = some ⟨size, configured, painter.1⟩ := rfl
  have hinit := Gpu.Painter.init_holds format
  have horderly : Orderly cs := by
    by_cases hin : .exiting ∈ inputs
    · exact (serve_gone hd hinit hin).2.1
    · obtain ⟨d, _, h⟩ := serve_holds hd hinit hin
      exact h.orderly
  refine ⟨horderly.created_nodup, horderly.destroyed_nodup, ?_, ?_, ?_⟩
  · intro past c rest b hcs hb
    exact Gpu.mem_live.mp ((horderly.suits hcs).refers b hb)
  · intro hin
    obtain ⟨d, hd', h⟩ := serve_holds hd hinit hin
    exact ⟨d, hd', h.apart, h.live⟩
  · intro hin
    obtain ⟨hnone, _, hlive⟩ := serve_gone hd hinit hin
    refine ⟨?_, fun later => (serve_none hnone later).2⟩
    intro b hb
    have hgone : b ∈ destroyed cs := by
      by_contra hnot
      have hmem := Gpu.mem_live.mpr ⟨hb, hnot⟩
      rw [hlive] at hmem
      cases hmem
    exact List.count_eq_one_of_mem horderly.destroyed_nodup hgone

end App

end Widgetry
