import Mathlib.Data.List.Basic
import Widgetry.Proofs.Ledger
import Widgetry.Proofs.Run

/-!
# The picture and the pointer

A scene is drawn by the flags of its rectangles. Flags and pointer agree after every run, so the
picture can be told from the pointer: `Scene.picture` says which quads are drawn, in which order
and in which color, without looking at a flag. A scene can be drawn on anything that quads can be
filled into; on a sheet it leaves its quads and in a batch their instances, whose bytes are words
with the lowest byte first. Corners are placed by the size of the viewport, or one pixel if that is
nothing.
-/

namespace Widgetry

/-- The place of the first rectangle with the identifier of a holder. -/
def firstWith (rects : List Rectangle) (holder : Option RectId) : Option Nat :=
  holder.bind fun id => rects.findIdx? (·.id = id)

/-- A rectangle has a mark exactly if it is the first one with the holder's identifier. -/
theorem Marked.has_iff {m : Mark} {holder : Option RectId} {rects : List Rectangle}
    (h : Marked m holder rects) {i : Nat} (hi : i < rects.length) :
    rects[i].has m = true ↔ firstWith rects holder = some i := by
  rw [h.flag_iff i hi]
  cases holder with
  | none => simp [firstWith]
  | some id =>
    simp only [firstWith, Option.bind_some, List.findIdx?_eq_some_iff_getElem]
    constructor
    · intro hplace
      obtain ⟨hid, hfirst⟩ := hplace
      cases hid
      exact ⟨hi, by simp, fun j hj => by simpa using hfirst j hj⟩
    · intro hplace
      obtain ⟨_, hid, hfirst⟩ := hplace
      simp only [decide_eq_true_eq] at hid
      refine ⟨by rw [hid], ?_⟩
      intro j hj
      simpa [hid] using hfirst j hj

namespace Scene

/-- The quad of the rectangle at a place, with the color that the pointer gives it. -/
def quadAt (s : Scene) (r : Rectangle) (i : Nat) : Quad where
  topLeft := s.viewport.map r.topLeft
  bottomRight := s.viewport.map r.bottomRight
  color :=
    if firstWith s.rects s.pointer.focused = some i then r.focusColor
    else if firstWith s.rects s.pointer.hovered = some i then r.hoverColor
    else r.fill

/-- The picture as the pointer tells it: a quad for each rectangle that has an area, bottom to
top. -/
def picture (s : Scene) : List Quad :=
  (s.rects.zipIdx.filter fun x => x.1.width ≠ 0 ∧ x.1.height ≠ 0).map fun x => s.quadAt x.1 x.2

theorem quad_eq_quadAt {s : Scene} (hs : s.stage.Coherent) {i : Nat} (hi : i < s.rects.length) :
    s.rects[i].quad s.viewport = s.quadAt s.rects[i] i := by
  have hfocus : s.rects[i].focused = true ↔ firstWith s.rects s.pointer.focused = some i :=
    (hs.marked .focus).has_iff hi
  have hhover : s.rects[i].hovered = true ↔ firstWith s.rects s.pointer.hovered = some i :=
    (hs.marked .hover).has_iff hi
  simp only [Rectangle.quad, Rectangle.currentColor, quadAt, hfocus, hhover]

theorem draw_eq_picture {s : Scene} (hs : s.stage.Coherent) : s.draw = s.picture := by
  have hplaces : s.draw = s.rects.zipIdx.filterMap fun x => x.1.draw s.viewport := by
    have hmap := List.filterMap_map (f := Prod.fst) (g := (·.draw s.viewport)) (l := s.rects.zipIdx)
    rw [List.zipIdx_map_fst] at hmap
    exact hmap
  rw [hplaces, picture, ← List.filterMap_eq_map, List.filterMap_filter]
  refine List.filterMap_congr ?_
  intro x hx
  obtain ⟨r, i⟩ := x
  obtain ⟨hi, hr⟩ := List.getElem?_eq_some_iff.mp (List.mk_mem_zipIdx_iff_getElem?.mp hx)
  have hquad := quad_eq_quadAt hs hi
  rw [hr] at hquad
  by_cases hw : r.width = 0
  · simp [Rectangle.draw, hw]
  · by_cases hh : r.height = 0
    · simp [Rectangle.draw, hh]
    · simp [Rectangle.draw, hw, hh, hquad]

theorem drawOn_eq {Canvas : Type} (s : Scene) (fill : Canvas → Quad → Canvas) (canvas : Canvas) :
    s.drawOn fill canvas = s.draw.foldl fill canvas := by
  unfold drawOn draw
  induction s.rects generalizing canvas with
  | nil => rfl
  | cons r rest ih =>
    rw [List.foldl_cons, ih, List.filterMap_cons]
    cases r.draw s.viewport with
    | none => rfl
    | some q => rfl

end Scene

/-- Puts a quad on top of a sheet of quads. -/
def Quad.onto (sheet : List Quad) (q : Quad) : List Quad := sheet ++ [q]

theorem foldl_onto (sheet quads : List Quad) : quads.foldl Quad.onto sheet = sheet ++ quads := by
  induction quads generalizing sheet with
  | nil => simp
  | cons q rest ih => simp [ih, Quad.onto]

namespace Gpu

theorem Batch.foldl_push (b : Batch) (quads : List Quad) :
    quads.foldl Batch.push b = b.fill quads := by
  induction quads generalizing b with
  | nil => simp [fill]
  | cons q rest ih => simp [ih, push, fill]

theorem Painter.foldl_push (p : Painter) (quads : List Quad) :
    quads.foldl Painter.push p = p.fill quads := by
  have hbatch : quads.foldl Painter.push { p with batch := p.batch } =
      { p with batch := quads.foldl Batch.push p.batch } :=
    List.foldl_hom (fun b => { p with batch := b }) fun _ _ => rfl
  rw [Batch.foldl_push] at hbatch
  exact hbatch

end Gpu

namespace Scene

/-- After every run, the picture is the one that the pointer tells: bottom to top, one quad for each
rectangle that has an area and none for the others, in the focus color for the first rectangle with
the identifier in focus, else in the hover color for the first with the hovered one, else in its
fill. A corner is placed by the share of the viewport that lies to its left and above it. Drawn on a
sheet the scene leaves these quads, and in a batch their instances; the bytes of a batch are those
of its instances one after the other, eight words each: the top left corner of the quad, the way to
the bottom right one, and the color. -/
theorem picture_agrees_with_pointer (v : Viewport) (ops : List Op) :
    let s := after v ops
    s.draw =
      (s.rects.zipIdx.filter fun x => x.1.width ≠ 0 ∧ x.1.height ≠ 0).map (fun x =>
        { topLeft := s.viewport.map x.1.topLeft
          bottomRight := s.viewport.map x.1.bottomRight
          color :=
            if firstWith s.rects s.pointer.focused = some x.2 then x.1.focusColor
            else if firstWith s.rects s.pointer.hovered = some x.2 then x.1.hoverColor
            else x.1.fill }) ∧
    (∀ p, s.viewport.map p =
      ⟨2 * p.x / (max s.viewport.width 1).toFloat32 - 1,
        1 - 2 * p.y / (max s.viewport.height 1).toFloat32⟩) ∧
    s.drawOn Quad.onto [] = s.draw ∧
    s.drawOn Gpu.Batch.push [] = (s.drawOn Quad.onto []).map Gpu.Instance.ofQuad ∧
    (∀ b : Gpu.Batch, b.bytes = (b.map Gpu.Instance.bytes).flatten) ∧
    (∀ q : Quad, Gpu.words (Gpu.Instance.ofQuad q).bytes =
      [q.topLeft.x, q.topLeft.y, q.bottomRight.x - q.topLeft.x, q.bottomRight.y - q.topLeft.y,
        q.color.r, q.color.g, q.color.b, q.color.a].map (·.toBits.toNat)) ∧
    ∀ i : Gpu.Instance, i.bytes.length = 32 ∧
      Gpu.words i.bytes =
        [i.topLeft.x, i.topLeft.y, i.size.x, i.size.y, i.color.r, i.color.g, i.color.b,
          i.color.a].map (·.toBits.toNat) := by
  intro s
  have hsheet : s.drawOn Quad.onto [] = s.draw := by
    rw [drawOn_eq, foldl_onto, List.nil_append]
  refine ⟨draw_eq_picture (after_coherent v ops), fun _ => rfl, hsheet, ?_,
    fun b => List.flatMap_def, Gpu.words_ofQuad, ?_⟩
  · rw [hsheet, drawOn_eq, Gpu.Batch.foldl_push]
    rfl
  · intro i
    exact ⟨i.bytes_length, Gpu.words_flatMap i.components⟩

end Scene

end Widgetry
