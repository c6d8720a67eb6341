import Widgetry.Proofs.Custody
import Widgetry.Proofs.Redraw

/-!
# One size for all

The size of the window is kept three times: by the scene, by the display and in the configuration
of its surface. Scene and display check each on its own for windows without area, and the surface
is configured anew after frames that could not be had. `App.run_sizes` says what the three are after
any window events: what the last event with an area reported, or what they were. So they cannot
part once they agree, and a single such event makes them agree.
-/

namespace Widgetry

namespace Viewport

/-- Something can be seen. -/
def HasArea (v : Viewport) : Prop := v.width ≠ 0 ∧ v.height ≠ 0

instance (v : Viewport) : Decidable v.HasArea := inferInstanceAs (Decidable (_ ∧ _))

/-- A size that has an area. -/
def visible? (v : Viewport) : Option Viewport := if v.HasArea then some v else none

theorem hasArea_of_visible? {v w : Viewport} (h : v.visible? = some w) : w.HasArea := by
  rw [visible?, Option.ite_none_right_eq_some] at h
  obtain ⟨harea, hw⟩ := h
  rw [← Option.some.inj hw]
  exact harea

theorem visible?_eq (v : Viewport) : v.visible? = if v.isEmpty then none else some v := by
  have hempty : v.isEmpty = true ↔ ¬ v.HasArea := by
    rw [isEmpty, Bool.or_eq_true, beq_iff_eq, beq_iff_eq, HasArea, not_and_or, not_not, not_not]
  by_cases h : v.HasArea
  · rw [visible?, if_pos h, if_neg fun he => hempty.mp he h]
  · rw [visible?, if_neg h, if_pos (hempty.mpr h)]

end Viewport

namespace WindowEvent

/-- The size that an event reports, if it has an area. -/
def size? : WindowEvent → Option Viewport
  | .resized v => v.visible?
  | _ => none

theorem hasArea_of_size? {e : WindowEvent} {v : Viewport} (h : e.size? = some v) : v.HasArea := by
  cases e with
  | resized w => exact Viewport.hasArea_of_visible? h
  | _ => cases h

end WindowEvent

namespace Gpu

/-- The sizes that calls configure the surface for. -/
def configurations (cs : List Call) : List Viewport :=
  cs.filterMap fun
    | .configure v => some v
    | _ => none

@[simp] theorem configurations_append (a b : List Call) :
    configurations (a ++ b) = configurations a ++ configurations b :=
  List.filterMap_append

theorem Painter.prepare_configurations {p q : Painter} {effects : List Effect}
    (h : p.prepare = some (q, effects)) : configurations (calls effects) = [] := by
  by_cases hb : p.batch = []
  · rw [prepare_empty hb] at h
    cases h
    rfl
  · rw [prepare_calls h hb]
    split <;> rfl

theorem Painter.render_configurations (p : Painter) : configurations (calls p.render) = [] := by
  unfold render
  split <;> rfl

/-- Drawing a frame leaves the surface as it is. -/
theorem Display.drawFrame_sizes {d d' : Display} {clear : Color} {effects : List Effect}
    (h : d.drawFrame clear = some (d', effects)) :
    d'.size = d.size ∧ d'.viewport = d.viewport ∧ configurations (calls effects) = [] := by
  obtain ⟨prepared, copied, hprepare, hd, hcalls⟩ := drawFrame_inv h
  rw [hd, hcalls]
  refine ⟨rfl, rfl, ?_⟩
  simp only [configurations_append, Painter.prepare_configurations hprepare,
    Painter.render_configurations]
  rfl

/-- Asking for a frame changes no size. The surface is configured if it was lost or is outdated, for
the size that it had. -/
theorem Display.renderFrame_sizes {World : Type} (d : Display) (acquired : Acquisition)
    (clear : Color) (draw : Drawing World) (w : World) :
    (d.renderFrame acquired clear draw w).display.size = d.size ∧
      (d.renderFrame acquired clear draw w).display.viewport = d.viewport ∧
      configurations (calls (d.renderFrame acquired clear draw w).effects) =
        if acquired = .lost ∨ acquired = .outdated then [d.viewport] else [] := by
  by_cases hacquired : acquired = .frame
  · rw [hacquired, if_neg (by decide)]
    rcases (d.renderFrame_acquired clear draw w).2 with
      ⟨_, drawn, hdrawn, hcalls⟩ | ⟨_, _, hdisplay, hcalls⟩
    · obtain ⟨hsize, hview, hnone⟩ := drawFrame_sizes hdrawn
      rw [hcalls]
      exact ⟨hsize, hview, hnone⟩
    · rw [hdisplay, hcalls]
      exact ⟨rfl, rfl, rfl⟩
  · obtain ⟨hdisplay, _, hcalls, _⟩ := Display.renderFrame_skipped hacquired draw w
    rw [hdisplay, hcalls]
    refine ⟨rfl, rfl, ?_⟩
    split <;> rfl

/-- A size with an area is taken over and the surface configured for it; any other is ignored. -/
theorem Display.resize_sizes (d : Display) (v : Viewport) :
    (d.resize v).1.size = v.visible?.getD d.size ∧
      (d.resize v).1.viewport = v.visible?.getD d.viewport ∧
      configurations (calls (d.resize v).2) = v.visible?.toList := by
  rw [resize, Viewport.visible?_eq]
  split <;> exact ⟨rfl, rfl, rfl⟩

end Gpu

theorem Scene.resize_viewport (s : Scene) (v : Viewport) :
    (s.resize v).viewport = v.visible?.getD s.viewport := by
  rw [resize, Viewport.visible?_eq]
  split <;> rfl

namespace App

open Gpu (configurations)

/-- The three places where an application with a display keeps the size of its window. -/
structure Sizes where
  scene : Viewport
  display : Viewport
  surface : Viewport

/-- The sizes once the window has reported one, if it has. -/
def Sizes.follow (s : Sizes) (latest : Option Viewport) : Sizes :=
  ⟨latest.getD s.scene, latest.getD s.display, latest.getD s.surface⟩

theorem Sizes.follow_follow (s : Sizes) (first later : Option Viewport) :
    (s.follow first).follow later = s.follow (later.or first) := by
  cases later <;> rfl

/-- Sizes that agreed, or that a report has reached, agree. -/
theorem Sizes.follow_agree (s : Sizes) {latest : Option Viewport}
    (h : (s.surface = s.scene ∧ s.display = s.scene) ∨ latest ≠ none) :
    s.follow latest = ⟨latest.getD s.scene, latest.getD s.scene, latest.getD s.scene⟩ := by
  rcases h with ⟨hsurface, hdisplay⟩ | hne
  · rw [follow, hsurface, hdisplay]
  · obtain ⟨v, rfl⟩ := Option.ne_none_iff_exists'.mp hne
    rfl

def sizes? (a : App) : Option Sizes :=
  a.display.map fun d => ⟨a.scene.viewport, d.size, d.viewport⟩

variable {a : App} {s : Sizes} {acquired : Gpu.Acquisition} {e : WindowEvent}

theorem display_of_sizes (h : a.sizes? = some s) :
    ∃ d, a.display = some d ∧ a.scene.viewport = s.scene ∧ d.size = s.display ∧
      d.viewport = s.surface := by
  obtain ⟨d, hd, hs⟩ := Option.map_eq_some_iff.mp h
  rw [← hs]
  exact ⟨d, hd, rfl, rfl, rfl⟩

/-- The surface is configured for a size with an area, and again where it was lost or is outdated
when a frame is asked for. -/
def Reconfigures (acquired : Gpu.Acquisition) : WindowEvent → Prop
  | .resized v => v.HasArea
  | .redrawRequested => acquired = .lost ∨ acquired = .outdated
  | _ => False

instance (acquired : Gpu.Acquisition) (e : WindowEvent) : Decidable (Reconfigures acquired e) :=
  match e with
  | .resized v => inferInstanceAs (Decidable v.HasArea)
  | .redrawRequested => inferInstanceAs (Decidable (_ ∨ _))
  | .cursorMoved .. | .cursorLeft | .mouseInput .. | .keyboardInput .. | .closeRequested
  | .destroyed | .other _ => inferInstanceAs (Decidable False)

/-- An event leaves the sizes that it should. If it configures the surface, then for the size that
the surface has from then on. -/
structure Tracks (s : Sizes) (acquired : Gpu.Acquisition) (e : WindowEvent)
    (o : App × List Effect) : Prop where
  sizes : o.1.sizes? = some (s.follow e.size?)
  surface : configurations (gpuCalls o.2) =
    if Reconfigures acquired e then [(s.follow e.size?).surface] else []

/-- What an event does to the sizes and to the surface. -/
theorem handle_tracks (h : a.sizes? = some s) (acquired : Gpu.Acquisition) (e : WindowEvent) :
    Tracks s acquired e (a.handle acquired e) := by
  obtain ⟨d, hd, hs⟩ := Option.map_eq_some_iff.mp h
  rcases a.handle_cases acquired e with ⟨hsize, hframe, hdisplay, hview, hcalls⟩ |
    ⟨v, he, hdisplay, hscene, hcalls⟩ | ⟨he, hredraw⟩
  · -- Any other event: sizes and surface are left alone.
    have hnone : e.size? = none := by
      cases e with
      | resized v => exact absurd rfl (hsize v)
      | _ => rfl
    have hquiet : ¬ Reconfigures acquired e := by
      cases e with
      | resized v => exact absurd rfl (hsize v)
      | redrawRequested => exact absurd rfl hframe
      | _ => exact not_false
    refine ⟨?_, ?_⟩
    · rw [sizes?, hdisplay, hview, hnone]
      exact h
    · rw [hcalls, if_neg hquiet]
      rfl
  · subst he
    obtain ⟨hsize, hview, hconfigured⟩ := d.resize_sizes v
    rw [resizeDisplay, hd] at hdisplay hcalls
    refine ⟨?_, ?_⟩
    · rw [sizes?, hdisplay, hscene, Option.map_some, a.scene.resize_viewport, hsize, hview, ← hs]
      rfl
    · rw [hcalls, gpuCalls_gpu, hconfigured, ← hs]
      show v.visible?.toList = if v.HasArea then [v.visible?.getD d.viewport] else []
      rw [Viewport.visible?]
      split <;> rfl
  · subst he
    obtain ⟨hsize, hview, hcalls⟩ := d.renderFrame_sizes acquired a.clearColor a.scene.drawing ()
    rw [hredraw, redraw, hd]
    refine ⟨?_, ?_⟩
    · rw [sizes?, Option.map_some, hsize, hview]
      exact congrArg some hs
    · rw [gpuCalls_append, gpuCalls_gpu, gpuCalls_ofAnswer, List.append_nil, hcalls, ← hs]
      rfl

/-- The sizes with an area that events report, in order. -/
def reported (events : List (Gpu.Acquisition × WindowEvent)) : List Viewport :=
  events.filterMap (·.2.size?)

theorem reported_getLast?_cons (event : Gpu.Acquisition × WindowEvent)
    (rest : List (Gpu.Acquisition × WindowEvent)) :
    (reported (event :: rest)).getLast? = (reported rest).getLast?.or event.2.size? := by
  rw [reported, List.filterMap_cons]
  cases event.2.size? with
  | none => simp [reported]
  | some v => simp [reported, List.getLast?_cons]

theorem reported_hasArea {events : List (Gpu.Acquisition × WindowEvent)} {v : Viewport}
    (h : v.HasArea ∨ reported events ≠ []) : ((reported events).getLast?.getD v).HasArea := by
  cases hlast : (reported events).getLast? with
  | none => exact h.resolve_right fun hne => hne (List.getLast?_eq_none_iff.mp hlast)
  | some w =>
    obtain ⟨event, _, hsize⟩ := List.mem_filterMap.mp (List.mem_of_getLast? hlast)
    exact WindowEvent.hasArea_of_size? hsize

/-- After any window events the sizes are what was reported last, or what they were. -/
theorem run_sizes (h : a.sizes? = some s) (events : List (Gpu.Acquisition × WindowEvent)) :
    (a.run events).1.sizes? = some (s.follow (reported events).getLast?) := by
  induction events generalizing a s with
  | nil => exact h
  | cons event rest ih =>
    rw [reported_getLast?_cons, ← Sizes.follow_follow]
    exact ih (handle_tracks h event.1 event.2).sizes

/-- Scene, display and surface agree on the size of the window. Whatever window events come: if the
three agreed on a size with an area, or if one of the events reports such a size, then in the end
they are the size that was reported last, or the common one if there was none. Every time the
surface is configured, for a new size or because it was lost or outdated, it is for the size that
the display draws to at that moment. -/
theorem sizes_never_part {d : Gpu.Display} (hd : a.display = some d)
    (events : List (Gpu.Acquisition × WindowEvent))
    (h : (d.viewport = a.scene.viewport ∧ d.size = a.scene.viewport ∧ a.scene.viewport.HasArea) ∨
      reported events ≠ []) :
    let last := (reported events).getLast?.getD a.scene.viewport
    last.HasArea ∧
    (∃ d', (a.run events).1.display = some d' ∧ (a.run events).1.scene.viewport = last ∧
      d'.viewport = last ∧ d'.size = last) ∧
    ∀ past acquired e later, events = past ++ (acquired, e) :: later →
      let now := (a.run past).1.handle acquired e
      ∃ before current, (a.run past).1.display = some before ∧ now.1.display = some current ∧
        current.viewport = e.size?.getD before.viewport ∧
        configurations (gpuCalls now.2) =
          if Reconfigures acquired e then [current.viewport] else [] := by
  intro last
  have hs : a.sizes? = some ⟨a.scene.viewport, d.size, d.viewport⟩ := by rw [sizes?, hd]; rfl
  have hagree : (d.viewport = a.scene.viewport ∧ d.size = a.scene.viewport) ∨
      (reported events).getLast? ≠ none :=
    h.imp (fun hstart => ⟨hstart.1, hstart.2.1⟩)
      fun hne hnone => hne (List.getLast?_eq_none_iff.mp hnone)
  refine ⟨reported_hasArea (h.imp_left fun hstart => hstart.2.2), ?_, ?_⟩
  · have hend := run_sizes hs events
    rw [Sizes.follow_agree _ hagree] at hend
    obtain ⟨d', hd', hscene, hsize, hview⟩ := display_of_sizes hend
    exact ⟨d', hd', hscene, hview, hsize⟩
  · intro past acquired e later _ now
    have hpast := run_sizes hs past
    have hnow := handle_tracks hpast acquired e
    obtain ⟨before, hbefore, _, _, hsurface⟩ := display_of_sizes hpast
    obtain ⟨current, hcurrent, _, _, hsurface'⟩ := display_of_sizes hnow.sizes
    refine ⟨before, current, hbefore, hcurrent, ?_, ?_⟩
    · rw [hsurface, hsurface']
      cases e.size? <;> rfl
    · rw [hsurface']
      exact hnow.surface

/-- An application whose display was made for another size than its scene has. -/
def drifted : App :=
  { App.new .standard (Scene.empty ⟨800, 600⟩) with
    display := some (Gpu.Display.init ⟨1, 1⟩ "Bgra8UnormSrgb").1 }

/-- The surface is lost, the window is minimized, opened again in another size, and half closed. In
the end a frame fails. -/
def minimizing : List (Gpu.Acquisition × WindowEvent) :=
  [(.lost, .redrawRequested), (.frame, .resized ⟨0, 0⟩), (.frame, .resized ⟨640, 480⟩),
    (.outdated, .redrawRequested), (.frame, .resized ⟨320, 0⟩), (.frame, .redrawRequested),
    (.outOfMemory, .redrawRequested)]

theorem sizes_never_part_minimizing :
    reported minimizing = [⟨640, 480⟩] ∧
    configurations (gpuCalls (drifted.run minimizing).2) = [⟨1, 1⟩, ⟨640, 480⟩, ⟨640, 480⟩] ∧
    ∃ d, (drifted.run minimizing).1.display = some d ∧
      (drifted.run minimizing).1.scene.viewport = ⟨640, 480⟩ ∧ d.viewport = ⟨640, 480⟩ ∧
      d.size = ⟨640, 480⟩ := by
  have h := sizes_never_part (a := drifted) rfl minimizing (.inr (by decide))
  exact ⟨by decide, by decide +kernel, h.2.1⟩

end App

end Widgetry
