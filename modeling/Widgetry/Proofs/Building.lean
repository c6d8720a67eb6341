import Widgetry.Proofs.Frame
import Widgetry.Proofs.Reload

/-!
# Scenes built from configurations

Sizes are checked twice: when a configuration is validated and when its rectangles are made. Both
checks stop at the first specification without area (`firstEmpty`). While a scene is built, its
pointer has seen no cursor, so that nothing is hovered and each rectangle stays as it was made.
-/

namespace Widgetry

namespace RectSpec

/-- Whether there is no area. -/
def isEmpty (s : RectSpec) : Bool := s.width = 0 ∨ s.height = 0

theorem isEmpty_iff {s : RectSpec} : s.isEmpty = true ↔ s.width = 0 ∨ s.height = 0 :=
  decide_eq_true_iff

theorem isEmpty_false_iff {s : RectSpec} : s.isEmpty = false ↔ s.width ≠ 0 ∧ s.height ≠ 0 := by
  rw [← Bool.not_eq_true, isEmpty_iff, not_or]

/-- The complaint about a size. -/
def fault (s : RectSpec) : Error := .size s.width s.height

theorem checkSize_empty {s : RectSpec} (h : s.isEmpty = true) : s.checkSize = .error s.fault :=
  if_pos (isEmpty_iff.mp h)

theorem checkSize_solid {s : RectSpec} (h : s.isEmpty = false) : s.checkSize = .ok () :=
  if_neg (by rw [← isEmpty_iff, h]; exact Bool.false_ne_true)

/-- The fill that is asked for, or a light gray. -/
def fill (s : RectSpec) : Color := s.color.getD ⟨0.9, 0.9, 0.9, 1⟩

/-- The rectangle of a specification, part by part. Where no color is asked for, red, green and blue
of the fill are taken less a tenth for hover and less a quarter for focus, with the same alpha. -/
def described (s : RectSpec) (id : RectId) : Rectangle where
  id
  topLeft := ⟨s.x, s.y⟩
  width := s.width
  height := s.height
  fill := s.fill
  hoverColor := s.hoverColor.getD
    ⟨s.fill.r * (1 - 0.1), s.fill.g * (1 - 0.1), s.fill.b * (1 - 0.1), s.fill.a⟩
  focusColor := s.focusColor.getD
    ⟨s.fill.r * (1 - 0.25), s.fill.g * (1 - 0.25), s.fill.b * (1 - 0.25), s.fill.a⟩
  listeners := {}
  hovered := false
  focused := false

/-- As long as some light is left and none is added, darkening scales by what is left. -/
theorem darken_eq {amount : Float32} (h : Number.clamp (1 - amount) 0 1 = 1 - amount) (c : Color) :
    c.darken amount =
      ⟨c.r * (1 - amount), c.g * (1 - amount), c.b * (1 - amount), c.a⟩ := by
  rw [Color.darken, h]

theorem hoverShade_eq (c : Color) : Rectangle.hoverShade c =
    ⟨c.r * (1 - 0.1), c.g * (1 - 0.1), c.b * (1 - 0.1), c.a⟩ :=
  darken_eq (by decide +kernel) c

theorem focusShade_eq (c : Color) : Rectangle.focusShade c =
    ⟨c.r * (1 - 0.25), c.g * (1 - 0.25), c.b * (1 - 0.25), c.a⟩ :=
  darken_eq (by decide +kernel) c

/-- The shades of a new fill do not overwrite the shades that are asked for. -/
theorem rectangle_eq_described (s : RectSpec) (id : RectId) : s.rectangle id = s.described id := by
  rw [described, ← hoverShade_eq, ← focusShade_eq]
  obtain ⟨x, y, width, height, color, hoverColor, focusColor⟩ := s
  cases color <;> cases hoverColor <;> cases focusColor <;> rfl

end RectSpec

namespace Scene

/-- A pointer that has seen no cursor hovers nothing that is added. -/
theorem add_unpointed (v : Viewport) (rects : List Rectangle) (r : Rectangle) :
    (Scene.add ⟨v, ⟨rects, {}⟩⟩ r).state = ⟨v, ⟨rects ++ [r], {}⟩⟩ := by
  have hstay : Stage.refresh ⟨rects ++ [r], {}⟩ = Stage.refuse ⟨rects ++ [r], {}⟩ :=
    Stage.transfer_self ⟨rects ++ [r], {}⟩ .hover
  rw [add, lift, hstay]
  rfl

end Scene

namespace Config

variable {α : Type} {specs : List RectSpec}

/-- A result for specifications that all have an area; otherwise the first one without is at
fault. -/
def unlessEmpty (specs : List RectSpec) (a : α) : Except Error α :=
  match specs.find? (·.isEmpty) with
  | some s => .error s.fault
  | none => .ok a

theorem unlessEmpty_cons_empty {s : RectSpec} (h : s.isEmpty = true) (rest : List RectSpec)
    (a : α) : unlessEmpty (s :: rest) a = .error s.fault := by
  rw [unlessEmpty, List.find?_cons_of_pos h]

theorem unlessEmpty_cons_solid {s : RectSpec} (h : s.isEmpty = false) (rest : List RectSpec)
    (a : α) : unlessEmpty (s :: rest) a = unlessEmpty rest a := by
  rw [unlessEmpty, unlessEmpty, List.find?_cons_of_neg (by simp [h])]

theorem unlessEmpty_error_iff {a : α} {e : Error} : unlessEmpty specs a = .error e ↔
    ∃ pre s post, specs = pre ++ s :: post ∧ (∀ t ∈ pre, t.isEmpty = false) ∧
      s.isEmpty = true ∧ e = s.fault := by
  rw [unlessEmpty]
  constructor
  · intro h
    split at h
    case h_1 s hfind =>
      obtain ⟨hs, pre, post, hsplit, hpre⟩ := List.find?_eq_some_iff_append.mp hfind
      cases h
      exact ⟨pre, s, post, hsplit, fun t ht => by simpa using hpre t ht, hs, rfl⟩
    case h_2 => cases h
  · intro h
    obtain ⟨pre, s, post, hsplit, hpre, hs, rfl⟩ := h
    have hfind : specs.find? (·.isEmpty) = some s :=
      List.find?_eq_some_iff_append.mpr ⟨hs, pre, post, hsplit, fun t ht => by simp [hpre t ht]⟩
    rw [hfind]

theorem unlessEmpty_fails_iff {a : α} :
    (∃ e, unlessEmpty specs a = .error e) ↔ ∃ s ∈ specs, s.isEmpty = true := by
  constructor
  · intro h
    obtain ⟨e, he⟩ := h
    obtain ⟨pre, s, post, hsplit, _, hs, _⟩ := unlessEmpty_error_iff.mp he
    exact ⟨s, by rw [hsplit]; exact List.mem_append_right pre List.mem_cons_self, hs⟩
  · intro h
    obtain ⟨s, hmem, hs⟩ := h
    obtain ⟨t, ht⟩ := Option.isSome_iff_exists.mp (List.find?_isSome.mpr ⟨s, hmem, hs⟩)
    exact ⟨t.fault, by rw [unlessEmpty, ht]⟩

theorem unlessEmpty_ok_iff {a b : α} : unlessEmpty specs a = .ok b ↔
    (∀ s ∈ specs, s.isEmpty = false) ∧ b = a := by
  rw [unlessEmpty]
  constructor
  · intro h
    split at h
    case h_1 => cases h
    case h_2 hfind =>
      cases h
      exact ⟨fun s hs => by simpa using List.find?_eq_none.mp hfind s hs, rfl⟩
  · intro h
    obtain ⟨hsolid, rfl⟩ := h
    have hfind : specs.find? (·.isEmpty) = none :=
      List.find?_eq_none.mpr fun s hs => by simp [hsolid s hs]
    rw [hfind]

theorem checkSpecs_eq (specs : List RectSpec) : checkSpecs specs = unlessEmpty specs () := by
  induction specs with
  | nil => rfl
  | cons s rest ih =>
    rw [checkSpecs]
    cases hempty : s.isEmpty with
    | true =>
      rw [RectSpec.checkSize_empty hempty, unlessEmpty_cons_empty hempty]
      rfl
    | false =>
      rw [RectSpec.checkSize_solid hempty, unlessEmpty_cons_solid hempty]
      exact ih

/-- The rectangles of specifications, named by their place from an index on. -/
def rectanglesFrom (name : Nat → RectId) (index : Nat) (specs : List RectSpec) : List Rectangle :=
  specs.mapIdx fun i s => s.described (name (index + i))

theorem rectanglesFrom_cons (name : Nat → RectId) (index : Nat) (s : RectSpec)
    (rest : List RectSpec) : rectanglesFrom name index (s :: rest) =
      s.described (name index) :: rectanglesFrom name (index + 1) rest := by
  simp only [rectanglesFrom, List.mapIdx_cons, Nat.add_zero, Nat.add_assoc, Nat.add_comm 1]

theorem addSpecs_eq (name : Nat → RectId) (index : Nat) (specs : List RectSpec) (v : Viewport)
    (rects : List Rectangle) : addSpecs name index specs ⟨v, ⟨rects, {}⟩⟩ =
      unlessEmpty specs ⟨v, ⟨rects ++ rectanglesFrom name index specs, {}⟩⟩ := by
  induction specs generalizing index rects with
  | nil =>
    rw [rectanglesFrom, List.mapIdx_nil, List.append_nil]
    rfl
  | cons s rest ih =>
    rw [addSpecs, RectSpec.build]
    cases hempty : s.isEmpty with
    | true =>
      rw [RectSpec.checkSize_empty hempty, unlessEmpty_cons_empty hempty]
      rfl
    | false =>
      have hrest := ih (index + 1) (rects ++ [s.described (name index)])
      rw [List.append_assoc, List.singleton_append, ← rectanglesFrom_cons,
        ← Scene.add_unpointed, ← RectSpec.rectangle_eq_described] at hrest
      rw [RectSpec.checkSize_solid hempty, unlessEmpty_cons_solid hempty]
      exact hrest

/-- The scene of a configuration has its rectangles in order and a pointer that has seen nothing.
-/
theorem buildScene_eq (c : Config) (name : Nat → RectId) : c.buildScene name =
    unlessEmpty c.rectangles ⟨c.viewport, ⟨rectanglesFrom name 0 c.rectangles, {}⟩⟩ :=
  addSpecs_eq name 0 c.rectangles c.viewport []

theorem validate_eq (c : Config) : c.validate =
    if c.window.width = 0 ∨ c.window.height = 0 then .error (.size c.window.width c.window.height)
    else unlessEmpty c.rectangles () := by
  have hempty : c.viewport.isEmpty = true ↔ c.window.width = 0 ∨ c.window.height = 0 := by
    simp [viewport, Viewport.isEmpty]
  rw [validate, checkSpecs_eq]
  simp only [hempty]

/-- Building a scene fails at the first rectangle without area and with its size, and so does
validation if the window has an area. Otherwise the scene shows what the configuration asks for:
its viewport, a pointer that has seen nothing, and one rectangle for each specification, in order,
without marks and listeners and with darker shades of its fill where it asks for none. Hence what
was read can be built. -/
theorem building_agrees_with_validation (c : Config) (name : Nat → RectId) :
    ((∃ e, c.buildScene name = .error e) ↔ ∃ s ∈ c.rectangles, s.width = 0 ∨ s.height = 0) ∧
      (∀ e, c.buildScene name = .error e ↔ ∃ pre s post, c.rectangles = pre ++ s :: post ∧
        (∀ t ∈ pre, t.width ≠ 0 ∧ t.height ≠ 0) ∧ (s.width = 0 ∨ s.height = 0) ∧
          e = .size s.width s.height) ∧
      (c.window.width ≠ 0 ∧ c.window.height ≠ 0 →
        (c.validate = .ok () ↔ ∃ scene, c.buildScene name = .ok scene) ∧
          ∀ e, c.validate = .error e ↔ c.buildScene name = .error e) ∧
      (∀ scene, c.buildScene name = .ok scene →
        scene.viewport = ⟨c.window.width, c.window.height⟩ ∧ scene.pointer = {} ∧
          scene.rects = c.rectangles.mapIdx fun i s => s.described (name i)) ∧
      ∀ text, ofJson text = .ok c → ∃ scene, c.buildScene name = .ok scene := by
  have hbuild := c.buildScene_eq name
  refine ⟨?_, ?_, ?_, ?_, ?_⟩
  · rw [hbuild, unlessEmpty_fails_iff]
    simp only [RectSpec.isEmpty_iff]
  · intro e
    rw [hbuild, unlessEmpty_error_iff]
    simp only [RectSpec.isEmpty_iff, RectSpec.isEmpty_false_iff, RectSpec.fault]
  · intro hwindow
    have hvalidate : c.validate = unlessEmpty c.rectangles () := by
      rw [validate_eq, if_neg (not_or.mpr hwindow)]
    rw [hvalidate, hbuild]
    simp only [unlessEmpty_ok_iff, unlessEmpty_error_iff, and_true, exists_eq_right, implies_true]
  · intro scene hscene
    rw [hbuild, unlessEmpty_ok_iff] at hscene
    obtain ⟨_, rfl⟩ := hscene
    refine ⟨rfl, rfl, ?_⟩
    show rectanglesFrom name 0 c.rectangles = _
    simp only [rectanglesFrom, Nat.zero_add]
  · intro text htext
    have hvalid := (ofJson_eq_ok.mp htext).2
    rw [validate_eq] at hvalid
    split at hvalid
    case isTrue => cases hvalid
    case isFalse => exact ⟨_, hbuild.trans (unlessEmpty_ok_iff.mpr
        ⟨(unlessEmpty_ok_iff.mp hvalid).1, rfl⟩)⟩

end Config

end Widgetry
