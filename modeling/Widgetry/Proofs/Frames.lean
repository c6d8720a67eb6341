import Mathlib.Data.List.Basic
import Widgetry.Proofs.Capacity
import Widgetry.Proofs.Ledger

/-!
# Frames are isolated

The batch, the count of copied instances and the buffer outlive a frame. `Painter.prepare_inv` says
what copying can do; `Display.renderFrame_skipped` and `Display.renderFrame_acquired` say what asking
for a frame can do. Between frames nothing is queued or copied, so what a frame draws from was queued
for it and written in it, whatever frames came before. The caller's drawing is run for frames that
can be had and for no others: a world of its own tells whether it was.
-/

namespace Widgetry.Gpu

namespace Painter

variable {p q : Painter} {effects : List Effect}

/-- Nothing is queued and nothing is copied. -/
def Quiet (p : Painter) : Prop := p.batch = [] ∧ p.uploaded = 0

/-- Room for a batch is there, or a larger buffer takes the place of the old one. -/
theorem reserve_inv (h : p.reserve = some (q, effects)) :
    (p.batch.length ≤ p.capacity ∧ q = p ∧ effects = []) ∨
    ∃ capacity, p.capacity < p.batch.length ∧
      grownCapacity p.capacity p.batch.length = some capacity ∧ p.grow capacity = (q, effects) := by
  unfold reserve at h
  split at h
  case isTrue hroom =>
    cases h
    exact .inl ⟨hroom, rfl, rfl⟩
  case isFalse hroom =>
    obtain ⟨capacity, hgrown, hgrow⟩ := Option.map_eq_some_iff.mp h
    exact .inr ⟨capacity, Nat.lt_of_not_le hroom, hgrown, hgrow⟩

/-- What a larger buffer keeps is kept by making room. -/
theorem reserve_preserves {P : Painter → List Call → Prop} {cs : List Call} (hp : P p cs)
    (hgrow : ∀ capacity, P (p.grow capacity).1 (cs ++ calls (p.grow capacity).2))
    (h : p.reserve = some (q, effects)) : P q (cs ++ calls effects) := by
  rcases reserve_inv h with ⟨_, hq, heffects⟩ | ⟨capacity, _, _, hgrown⟩
  · rw [hq, heffects, calls_nil, List.append_nil]
    exact hp
  · have hnext := hgrow capacity
    rw [hgrown] at hnext
    exact hnext

/-- Nothing is copied, or the batch is, once there is room for it. -/
theorem prepare_inv (h : p.prepare = some (q, effects)) :
    (p.batch = [] ∧ q = { p with uploaded := 0 } ∧ effects = []) ∨
    ∃ roomy grown, p.batch ≠ [] ∧ p.reserve = some (roomy, grown) ∧ q = roomy.upload.1 ∧
      effects = grown ++ roomy.upload.2 := by
  unfold prepare at h
  split at h
  case isTrue hb =>
    cases h
    exact .inl ⟨List.isEmpty_iff.mp hb, rfl, rfl⟩
  case isFalse hb =>
    obtain ⟨⟨roomy, grown⟩, hreserve, heq⟩ := Option.map_eq_some_iff.mp h
    cases heq
    exact .inr ⟨roomy, grown, by simpa using hb, hreserve, rfl, rfl⟩

theorem prepare_empty (h : p.batch = []) : p.prepare = some ({ p with uploaded := 0 }, []) :=
  if_pos (by simp [h])

/-- What can be counted can be copied. -/
theorem prepare_isSome (h : p.batch.length < Nat.pow 2 32) :
    ∃ q effects, p.prepare = some (q, effects) := by
  have hreserve : ∃ r, p.reserve = some r := by
    by_cases hroom : p.batch.length ≤ p.capacity
    · exact ⟨_, if_pos hroom⟩
    · have hlimit : 2 * Nat.pow 2 32 ≤ wordLimit := by decide
      have hcurrent : p.capacity < wordLimit := by omega
      have hneeded : 2 * p.batch.length ≤ wordLimit := by omega
      obtain ⟨k, _, hgrown⟩ := grownCapacity_half hcurrent hneeded
      exact ⟨_, by rw [reserve, if_neg hroom, hgrown]; rfl⟩
  by_cases hb : p.batch = []
  · exact ⟨_, _, prepare_empty hb⟩
  · obtain ⟨r, hr⟩ := hreserve
    exact ⟨_, _, by rw [prepare, if_neg (by simpa using hb), hr]; rfl⟩

/-- The batch and the corners stay as they are. -/
theorem reserve_keeps (h : p.reserve = some (q, effects)) :
    q.batch = p.batch ∧ q.unitQuad = p.unitQuad := by
  rcases reserve_inv h with ⟨_, hq, _⟩ | ⟨capacity, _, _, hgrow⟩
  · rw [hq]
    exact ⟨rfl, rfl⟩
  · cases hgrow
    exact ⟨rfl, rfl⟩

theorem prepare_keeps (h : p.prepare = some (q, effects)) :
    q.batch = p.batch ∧ q.unitQuad = p.unitQuad := by
  rcases prepare_inv h with ⟨_, hq, _⟩ | ⟨roomy, grown, _, hreserve, hq, _⟩
  · rw [hq]
    exact ⟨rfl, rfl⟩
  · obtain ⟨hbatch, hunit⟩ := reserve_keeps hreserve
    rw [hq]
    exact ⟨hbatch, hunit⟩

/-- As many are copied as are queued. -/
theorem prepare_uploaded (h : p.prepare = some (q, effects))
    (hsmall : p.batch.length < Nat.pow 2 32) : q.uploaded.toNat = p.batch.length := by
  rcases prepare_inv h with ⟨hb, hq, _⟩ | ⟨roomy, grown, _, hreserve, hq, _⟩
  · rw [hq, hb]
    rfl
  · rw [hq, ← (reserve_keeps hreserve).1]
    rw [← (reserve_keeps hreserve).1] at hsmall
    exact Nat.mod_eq_of_lt hsmall

/-- A batch is written after a larger buffer has taken the place of one that is too small. -/
theorem prepare_calls (h : p.prepare = some (q, effects)) (hb : p.batch ≠ []) :
    calls effects =
      (if p.batch.length ≤ p.capacity then []
        else [.destroyBuffer p.instances, createInstances q.instances q.capacity]) ++
      [.writeBuffer q.instances 0 p.batch.bytes] := by
  rcases prepare_inv h with ⟨hempty, _⟩ | ⟨roomy, grown, _, hreserve, hq, heffects⟩
  · exact absurd hempty hb
  · rw [heffects, hq, ← (reserve_keeps hreserve).1]
    rcases reserve_inv hreserve with ⟨hroom, hroomy, hgrown⟩ | ⟨capacity, hroom, _, hgrow⟩
    · rw [hroomy, hgrown, if_pos hroom]
      rfl
    · cases hgrow
      rw [if_neg (Nat.not_le_of_lt hroom)]
      rfl

theorem render_nil (h : p.uploaded.toNat = 0) : calls p.render = [] := by
  have hz : p.uploaded = 0 := UInt32.toNat_inj.mp h
  rw [render, if_pos hz]
  rfl

theorem render_calls (h : p.uploaded.toNat ≠ 0) :
    calls p.render =
      [.setPipeline, .setVertexBuffer 0 p.unitQuad 0 unitBytes.length,
        .setVertexBuffer 1 p.instances 0 (p.uploaded.toNat * Instance.byteSize),
        .draw 0 6 0 p.uploaded.toNat] := by
  have hpos : p.uploaded ≠ 0 := fun hz => h (by rw [hz]; rfl)
  rw [render, if_neg hpos]
  rfl

theorem init_quiet (format : String) : (init format).1.Quiet := ⟨rfl, rfl⟩

theorem clear_quiet (p : Painter) : p.clear.Quiet := ⟨rfl, rfl⟩

theorem Quiet.fill (h : p.Quiet) (quads : List Quad) :
    (p.fill quads).batch = quads.map Instance.ofQuad := by
  rw [Painter.fill, h.1]
  rfl

end Painter

namespace Display

variable {World : Type} {d d' : Display} {clear : Color} {effects : List Effect}

/-- Drawing a frame is copying, a pass and showing it. -/
theorem drawFrame_inv (h : d.drawFrame clear = some (d', effects)) :
    ∃ prepared copied, d.painter.prepare = some (prepared, copied) ∧
      d' = { d with painter := prepared.clear } ∧
      calls effects =
        calls copied ++ [.encoder "frame-encoder", .beginPass "main-pass" clear true] ++
          calls prepared.render ++ [.finish, .submit 1, .present] := by
  obtain ⟨⟨prepared, copied⟩, hprepare, heq⟩ := Option.map_eq_some_iff.mp h
  cases heq
  exact ⟨prepared, copied, hprepare, rfl, by simp⟩

/-- A frame that cannot be had leaves display and world alone and does not ask what was to be
drawn. -/
theorem renderFrame_skipped {acquired : Acquisition} (h : acquired ≠ .frame)
    (draw : Drawing World) (w : World) :
    let o := d.renderFrame acquired clear draw w
    o.display = d ∧ o.world = w ∧
      calls o.effects =
        .acquire :: (if acquired = .lost ∨ acquired = .outdated then [.configure d.viewport]
          else []) ∧
      o.answer = (if acquired = .outOfMemory then .error .outOfMemory else .ok false) ∧
      ∀ draw', d.renderFrame acquired clear draw' w = o := by
  cases acquired with
  | frame => exact absurd rfl h
  | _ => exact ⟨rfl, rfl, rfl, rfl, fun _ => rfl⟩

/-- One that can be had lets the caller draw, and what is queued then is drawn unless there is no
capacity for it. -/
theorem renderFrame_acquired (d : Display) (clear : Color) (draw : Drawing World) (w : World) :
    let o := d.renderFrame .frame clear draw w
    let queued : Display := { d with painter := (draw d.painter w).1 }
    o.world = (draw d.painter w).2 ∧
    ((o.answer = .ok true ∧ ∃ drawn, queued.drawFrame clear = some (o.display, drawn) ∧
        calls o.effects = .acquire :: calls drawn) ∨
      (o.answer = .error .overflow ∧ queued.drawFrame clear = none ∧ o.display = queued ∧
        calls o.effects = [.acquire])) := by
  intro o queued
  cases hdrawn : queued.drawFrame clear with
  | some drawn =>
    have ho : o = ⟨drawn.1, (draw d.painter w).2, .call .acquire :: drawn.2, .ok true⟩ := by
      simp only [o, renderFrame, queued, hdrawn]
    rw [ho]
    exact ⟨rfl, .inl ⟨rfl, drawn.2, rfl, rfl⟩⟩
  | none =>
    have ho : o = ⟨queued, (draw d.painter w).2, [.call .acquire], .error .overflow⟩ := by
      simp only [o, renderFrame, queued, hdrawn]
    rw [ho]
    exact ⟨rfl, .inr ⟨rfl, rfl, rfl, rfl⟩⟩

/-- What is asked of a display for a frame, and how the surface answers. The caller's drawing may do
anything to its world, but all it does to the painter is to queue quads. -/
structure Frame (World : Type) where
  acquired : Acquisition
  clear : Color
  draw : Drawing World
  quads : World → List Quad
  queues : ∀ p w, (draw p w).1 = p.fill (quads w)
  small : ∀ w, (quads w).length < Nat.pow 2 32

variable {f : Frame World} {w : World}

def frame (d : Display) (f : Frame World) (w : World) : Rendered World :=
  d.renderFrame f.acquired f.clear f.draw w

/-- Frames one after the other, in a world that passes from one to the next. -/
def run (d : Display) (w : World) : List (Frame World) → Display × World
  | [] => (d, w)
  | f :: rest => (d.frame f w).display.run (d.frame f w).world rest

/-- A frame that can be had is copied, drawn and shown, and leaves nothing queued or copied. -/
theorem frame_acquired (hd : d.painter.Quiet) (h : f.acquired = .frame) :
    ∃ prepared copied, (d.painter.fill (f.quads w)).prepare = some (prepared, copied) ∧
      (d.frame f w).display = { d with painter := prepared.clear } ∧
      (d.frame f w).world = (f.draw d.painter w).2 ∧ (d.frame f w).answer = .ok true ∧
      calls (d.frame f w).effects =
        .acquire :: (calls copied ++
          [.encoder "frame-encoder", .beginPass "main-pass" f.clear true] ++
          calls prepared.render ++ [.finish, .submit 1, .present]) := by
  have hsmall : (d.painter.fill (f.quads w)).batch.length < Nat.pow 2 32 := by
    rw [hd.fill, List.length_map]
    exact f.small w
  obtain ⟨q, effects, hprepare⟩ := Painter.prepare_isSome hsmall
  obtain ⟨hworld, houtcome⟩ := d.renderFrame_acquired f.clear f.draw w
  rw [frame, h]
  rcases houtcome with ⟨hanswer, drawn, hdrawn, hcalls⟩ | ⟨_, hnone, _⟩
  · obtain ⟨prepared, copied, hpainter, hdisplay, hframe⟩ := drawFrame_inv hdrawn
    rw [f.queues] at hpainter
    exact ⟨prepared, copied, hpainter, hdisplay, hworld, hanswer, hcalls.trans (by rw [hframe])⟩
  · rw [drawFrame, f.queues, hprepare] at hnone
    cases hnone

theorem frame_quiet (hd : d.painter.Quiet) (f : Frame World) (w : World) :
    (d.frame f w).display.painter.Quiet := by
  by_cases h : f.acquired = .frame
  · obtain ⟨prepared, _, _, hdisplay, _⟩ := frame_acquired (w := w) hd h
    rw [hdisplay]
    exact prepared.clear_quiet
  · rw [frame, (renderFrame_skipped h f.draw w).1]
    exact hd

theorem run_quiet (hd : d.painter.Quiet) (w : World) (frames : List (Frame World)) :
    (d.run w frames).1.painter.Quiet := by
  induction frames generalizing d w with
  | nil => exact hd
  | cons f rest ih => exact ih (frame_quiet hd f w) _

/-- Without quads a frame is cleared and shown, and that is all. -/
theorem frame_calls_empty (hd : d.painter.Quiet) (h : f.acquired = .frame) (hq : f.quads w = []) :
    calls (d.frame f w).effects =
      [.acquire, .encoder "frame-encoder", .beginPass "main-pass" f.clear true, .finish, .submit 1,
        .present] := by
  obtain ⟨prepared, copied, hprepare, _, _, _, hcalls⟩ := frame_acquired (w := w) hd h
  have hbatch : (d.painter.fill (f.quads w)).batch = [] := by
    rw [hd.fill, hq]
    rfl
  rw [Painter.prepare_empty hbatch] at hprepare
  cases hprepare
  rw [hcalls, Painter.render_nil rfl]
  rfl

/-- The calls of a frame with quads up to its draw: a larger buffer takes the place of one that is
too small, and the instances are written and bound. -/
def leadUp (old new : Painter) (clear : Color) (quads : List Quad) : List Call :=
  .acquire :: (if quads.length ≤ old.capacity then []
    else [.destroyBuffer old.instances, Painter.createInstances new.instances new.capacity]) ++
  [.writeBuffer new.instances 0 (quads.flatMap fun q => (Instance.ofQuad q).bytes),
    .encoder "frame-encoder", .beginPass "main-pass" clear true, .setPipeline,
    .setVertexBuffer 0 old.unitQuad 0 Painter.unitBytes.length,
    .setVertexBuffer 1 new.instances 0 (quads.length * Instance.byteSize)]

theorem leadUp_supplies (old new : Painter) (clear : Color) (quads : List Quad) :
    Supplies (leadUp old new clear quads)
      (quads.flatMap fun q => (Instance.ofQuad q).bytes) := by
  have hsize : (quads.flatMap fun q => (Instance.ofQuad q).bytes).length =
      quads.length * Instance.byteSize := by
    rw [← List.length_map (f := Instance.ofQuad), ← Batch.bytes_length, Batch.bytes,
      List.flatMap_map]
  refine ⟨new.instances, ?_, ?_⟩
  · rw [leadUp, bound_append, hsize]
    rfl
  · rw [leadUp, lastWrite_append]
    simp [Call.writeAfter]

theorem leadUp_draws (old new : Painter) (clear : Color) (quads : List Quad) (v u i j : Nat) :
    .draw v u i j ∉ leadUp old new clear quads := by
  unfold leadUp
  split <;> simp [Painter.createInstances]

/-- With quads their instances are written, bound and drawn. -/
theorem frame_calls (hd : d.painter.Quiet) (h : f.acquired = .frame) (hq : f.quads w ≠ []) :
    calls (d.frame f w).effects =
      leadUp d.painter (d.frame f w).display.painter f.clear (f.quads w) ++
        .draw 0 6 0 (f.quads w).length :: [.finish, .submit 1, .present] := by
  obtain ⟨prepared, copied, hprepare, hdisplay, _, _, hcalls⟩ := frame_acquired (w := w) hd h
  have hbatch := hd.fill (f.quads w)
  have hlength : (d.painter.fill (f.quads w)).batch.length = (f.quads w).length := by
    rw [hbatch, List.length_map]
  have hbytes : (d.painter.fill (f.quads w)).batch.bytes =
      (f.quads w).flatMap fun q => (Instance.ofQuad q).bytes := by
    rw [hbatch, Batch.bytes, List.flatMap_map]
  have hcopied := Painter.prepare_calls hprepare (by simpa [hbatch] using hq)
  have hcount : prepared.uploaded.toNat = (f.quads w).length := by
    rw [Painter.prepare_uploaded hprepare (by rw [hlength]; exact f.small w), hlength]
  have hpos : prepared.uploaded.toNat ≠ 0 := by
    rw [hcount]
    exact fun hzero => hq (List.length_eq_zero_iff.mp hzero)
  have hunit : prepared.unitQuad = d.painter.unitQuad := (Painter.prepare_keeps hprepare).2
  rw [hcalls, hcopied, Painter.render_calls hpos, hdisplay, hcount, hunit, hlength, hbytes, leadUp]
  simp only [Painter.clear, List.append_assoc, List.cons_append, List.nil_append]
  rfl

/-- What is drawn from was written in the same frame, and nothing is written after it. -/
theorem frame_draws (hd : d.painter.Quiet) {past rest : List Call} {v u i j : Nat}
    (hcalls : calls (d.frame f w).effects = past ++ .draw v u i j :: rest) :
    f.acquired = .frame ∧ (v = 0 ∧ u = 6 ∧ i = 0 ∧ j = (f.quads w).length) ∧
      Supplies past ((f.quads w).flatMap fun q => (Instance.ofQuad q).bytes) ∧
      ∀ buffer offset data, .writeBuffer buffer offset data ∉ rest := by
  have hmem : .draw v u i j ∈ calls (d.frame f w).effects := by simp [hcalls]
  by_cases h : f.acquired = .frame
  · by_cases hq : f.quads w = []
    · rw [frame_calls_empty hd h hq] at hmem
      simp at hmem
    · rw [frame_calls hd h hq] at hcalls
      have hlead := leadUp_draws d.painter (d.frame f w).display.painter f.clear (f.quads w) v u i j
      obtain ⟨hpast, hdraw, hrest⟩ :=
        (List.append_cons_inj_of_notMem hlead (by simp)).mp hcalls
      cases hdraw
      rw [← hpast, ← hrest]
      exact ⟨h, ⟨rfl, rfl, rfl, rfl⟩, leadUp_supplies .., by simp⟩
  · rw [frame, (renderFrame_skipped h f.draw w).2.2.1] at hmem
    split at hmem <;> simp at hmem

/-- Starting from a new painter, whatever frames came before and however they ended: nothing is
queued or copied before or after a frame. A frame that cannot be had leaves the display as it is and
does not run the caller's drawing: the world stays the same and the outcome is the same whatever was
to be drawn. For one that can be had the drawing is run once, and it is shown: it writes, binds and
draws the instances of its own quads in order, or only clears if there are none. Whatever it draws
it has written itself, and it writes nothing more after that. -/
theorem frames_are_isolated (size : Viewport) (format : String) (before : List (Frame World))
    (f : Frame World) (start : World) :
    let d := ((init size format).1.run start before).1
    let w := ((init size format).1.run start before).2
    let o := d.frame f w
    let next := o.display.painter
    let quads := f.quads w
    d.painter.Quiet ∧ next.Quiet ∧
    (f.acquired ≠ .frame →
      o.answer = (if f.acquired = .outOfMemory then .error .outOfMemory else .ok false) ∧
      o.display = d ∧ o.world = w ∧
      (∀ draw, d.renderFrame f.acquired f.clear draw w = o) ∧
      calls o.effects =
        .acquire :: (if f.acquired = .lost ∨ f.acquired = .outdated then [.configure d.viewport]
          else [])) ∧
    (f.acquired = .frame → o.answer = .ok true ∧ o.world = (f.draw d.painter w).2 ∧
      (quads = [] → calls o.effects =
        [.acquire, .encoder "frame-encoder", .beginPass "main-pass" f.clear true, .finish,
          .submit 1, .present]) ∧
      (quads ≠ [] → calls o.effects =
        .acquire :: (if quads.length ≤ d.painter.capacity then []
          else [.destroyBuffer d.painter.instances,
            Painter.createInstances next.instances next.capacity]) ++
        [.writeBuffer next.instances 0 (quads.flatMap fun q => (Instance.ofQuad q).bytes),
          .encoder "frame-encoder", .beginPass "main-pass" f.clear true, .setPipeline,
          .setVertexBuffer 0 d.painter.unitQuad 0 Painter.unitBytes.length,
          .setVertexBuffer 1 next.instances 0 (quads.length * 32),
          .draw 0 6 0 quads.length, .finish, .submit 1, .present])) ∧
    (∀ q : Quad, (Instance.ofQuad q).bytes.length = 32 ∧
      words (Instance.ofQuad q).bytes =
        [q.topLeft.x, q.topLeft.y, q.bottomRight.x - q.topLeft.x, q.bottomRight.y - q.topLeft.y,
          q.color.r, q.color.g, q.color.b, q.color.a].map (·.toBits.toNat)) ∧
    ∀ past v u i j rest, calls o.effects = past ++ .draw v u i j :: rest →
      f.acquired = .frame ∧ (v = 0 ∧ u = 6 ∧ i = 0 ∧ j = quads.length) ∧
      Supplies past (quads.flatMap fun q => (Instance.ofQuad q).bytes) ∧
      ∀ buffer offset data, .writeBuffer buffer offset data ∉ rest := by
  intro d w o next quads
  have hd : d.painter.Quiet := run_quiet (Painter.init_quiet format) start before
  refine ⟨hd, frame_quiet hd f w, ?_, ?_, fun q => ⟨rfl, words_ofQuad q⟩,
    fun _ _ _ _ _ _ => frame_draws hd⟩
  · intro h
    obtain ⟨hdisplay, hworld, hcalls, hanswer, hdraw⟩ := renderFrame_skipped h f.draw w
    exact ⟨hanswer, hdisplay, hworld, hdraw, hcalls⟩
  · intro h
    obtain ⟨_, _, _, _, hworld, hanswer, _⟩ := frame_acquired (w := w) hd h
    refine ⟨hanswer, hworld, frame_calls_empty hd h, ?_⟩
    intro hq
    rw [frame_calls hd h hq, leadUp, List.append_assoc]
    rfl

end Display

end Widgetry.Gpu
