import Widgetry.Config.Stored
import Widgetry.Proofs.Filling

/-!
# Configurations from any text

A configuration is read from an object whose members come in any order, with others between them.
What is there takes the place of the standard value, and what is not there keeps it; a rectangle
has no standard place or size.
-/

namespace Widgetry.Json

open Reader

variable {α β : Type}

/-! ## Texts that say the same -/

/-- The parts of a value that are read by themselves. -/
inductive Layout where
  | whole
  | object (keys : List (String × Layout))
  | list (item : Layout)

/-- Two texts that differ in the order of keys, in unknown keys and in blanks, at any level. -/
inductive Rearranged : Layout → List Char → List Char → Prop where
  | same {l : Layout} {v : List Char} : Rearranged l v v
  | object {keys : List (String × Layout)} {o o' : ObjectText} :
      o.Once (keys.map Prod.fst) → o'.Once (keys.map Prod.fst) →
      (∀ k ∈ keys, (lookup o.entries k.1).isSome = (lookup o'.entries k.1).isSome) →
      (∀ k ∈ keys, ∀ v w, lookup o.entries k.1 = some v → lookup o'.entries k.1 = some w →
        Rearranged k.2 v w) → Rearranged (.object keys) o.chars o'.chars
  | list {item : Layout} {items items' : List Padded} {gap gap' : Blanks} :
      (∀ p ∈ items, IsValue p.text) → (∀ p ∈ items', IsValue p.text) →
      items.length = items'.length →
      (∀ p ∈ items.zip items', Rearranged item p.1.text p.2.text) →
      Rearranged (.list item) (listChars items gap) (listChars items' gap')

/-- Rearranged texts are read as the same. -/
def Follows (α : Type) [Codec α] (l : Layout) : Prop :=
  ∀ v w, Rearranged l v w → (own v : Option α) = own w

theorem follows_whole [Codec α] : Follows α .whole := by
  intro v w h
  cases h with
  | same => rfl

theorem own_list [Codec α] {levels : Nat} (hone : 1 ≤ levels) (hlevels : levels < depthLimit)
    (h : Steady α levels) {items : List Padded} (hv : ∀ p ∈ items, IsValue p.text) (gap : Blanks) :
    own (listChars items gap) = items.mapM fun p => (own p.text : Option α) := by
  have hreads : ReadsValue (Codec.read : Nat → Reader (List α)) (levels + 1) (listChars items gap)
      (items.mapM fun p => own p.text) :=
    fun depth hdepth pre hpre => listOf_listed h hv gap hdepth (by omega) hpre
  exact hreads.own_eq hlevels

theorem follows_list [Codec α] {levels : Nat} (hone : 1 ≤ levels) (hlevels : levels < depthLimit)
    (hsteady : Steady α levels) {l : Layout} (h : Follows α l) : Follows (List α) (.list l) := by
  intro v w hvw
  cases hvw with
  | same => rfl
  | @list _ items items' _ _ hv hv' hlen hparts =>
    rw [own_list hone hlevels hsteady hv, own_list hone hlevels hsteady hv']
    clear hv hv'
    induction items generalizing items' with
    | nil =>
      obtain rfl := List.length_eq_zero_iff.mp hlen.symm
      rfl
    | cons p items ih =>
      obtain ⟨p', items', rfl⟩ := List.exists_cons_of_length_eq_add_one hlen.symm
      rw [List.zip_cons_cons, List.forall_mem_cons] at hparts
      rw [List.mapM_cons, List.mapM_cons, h _ _ hparts.1, ih (Nat.succ.inj hlen) hparts.2]

section Rearranged

variable {keys : List (String × Layout)} {o o' : ObjectText} {key : String} {l : Layout}
  (hsome : ∀ k ∈ keys, (lookup o.entries k.1).isSome = (lookup o'.entries k.1).isSome)
  (hvalues : ∀ k ∈ keys, ∀ v w, lookup o.entries k.1 = some v → lookup o'.entries k.1 = some w →
    Rearranged k.2 v w)
include hsome hvalues

/-- In rearranged objects, a known key has the same value. -/
theorem read_rearranged [Codec β] (h : Follows β l) (hkey : (key, l) ∈ keys) :
    (o.read key : Option (Option β)) = o'.read key := by
  have hboth := hsome _ hkey
  rw [ObjectText.read, ObjectText.read]
  cases hv : lookup o.entries key with
  | none =>
    rw [hv] at hboth
    rw [Option.isNone_iff_eq_none.mp (Option.isSome_eq_false_iff.mp hboth.symm)]
  | some v =>
    rw [hv] at hboth
    obtain ⟨w, hw⟩ := Option.isSome_iff_exists.mp hboth.symm
    rw [hw, Option.mapM_some, Option.mapM_some, h v w (hvalues _ hkey v w hv hw)]

end Rearranged

end Widgetry.Json

namespace Widgetry

open Json

/-! ## Windows -/

namespace WindowConfig

/-- The standard window with what an object has in its place. -/
def filled (o : ObjectText) : Option WindowConfig := do
  let title ← o.read "title"
  let width ← o.read "width"
  let height ← o.read "height"
  let standard : WindowConfig := {}
  return ⟨title.getD standard.title, width.getD standard.width, height.getD standard.height⟩

theorem fields_steady : ∀ f ∈ record.fields, f.Steady 1 :=
  List.forall_iff_forall_mem.mp ⟨string_steady.field (by decide),
    word32_steady.field (by decide), word32_steady.field (by decide)⟩

theorem steady : Steady WindowConfig 2 :=
  Record.steady rfl fields_steady (by decide) (by decide)

theorem lawful : record.Lawful := by
  constructor
  case apart =>
    simp only [record, List.pairwise_cons, List.forall_mem_cons, List.not_mem_nil, false_implies,
      implies_true, and_true, List.Pairwise.nil]
    and_intros <;>
      exact Field.of_apart (by decide) (fun _ _ => rfl) (fun _ _ => rfl) (fun _ _ _ => rfl)
  case given =>
    refine List.forall_iff_forall_mem.mp ?_
    and_intros <;> exact Field.of_given fun _ _ => rfl
  case blank => decide

theorem own_object (o : ObjectText) : own o.chars =
    if o.Once ["title", "width", "height"] then filled o else none := by
  have hfill : fillFields (lookup o.entries) record.fields record.blank =
      (o.read "title").bind fun title => (o.read "width").bind fun width =>
        (o.read "height").bind fun height => some ⟨title, width, height⟩ := by
    dsimp only [record]
    refine fillFields_of string_steady o (fun title => ({ title } : Draft)) rfl
      (fun _ => rfl) fun title => ?_
    refine fillFields_of word32_steady o (fun width => ({ title, width } : Draft)) rfl
      (fun _ => rfl) fun width => ?_
    refine fillFields_of word32_steady o (fun height => ({ title, width, height } : Draft)) rfl
      (fun _ => rfl) fun height => ?_
    rfl
  rw [Record.own_object rfl lawful fields_steady (by decide) (by decide) o, hfill]
  simp only [Option.bind_assoc]
  rfl

/-- The parts of a window. -/
def layout : Layout := .object [("title", .whole), ("width", .whole), ("height", .whole)]

theorem follows : Follows WindowConfig layout := by
  intro v w h
  cases h with
  | same => rfl
  | @object keys o o' honce honce' hsome hvalues =>
    have hread {β : Type} [Codec β] {key : String} (hkey : (key, Layout.whole) ∈ _) :
        (o.read key : Option (Option β)) = o'.read key :=
      read_rearranged hsome hvalues follows_whole hkey
    have hkeys : o.Once ["title", "width", "height"] := honce
    have hkeys' : o'.Once ["title", "width", "height"] := honce'
    rw [own_object, own_object, if_pos hkeys, if_pos hkeys', filled, filled, hread (by simp),
      hread (by simp), hread (by simp)]

end WindowConfig

/-! ## Rectangles -/

namespace RectSpec

/-- The color under a key. There is none if the key does not occur, and none if it is `null`. -/
def colorOf (o : ObjectText) (key : String) : Option (Option Color) :=
  match lookup o.entries key with
  | none => some none
  | some v => if v = ['n', 'u', 'l', 'l'] then some none else (own v).map some

/-- The rectangle of an object. Its place and size must be there. -/
def filled (o : ObjectText) : Option RectSpec := do
  let x ← o.read "x"
  let y ← o.read "y"
  let width ← o.read "width"
  let height ← o.read "height"
  let color ← colorOf o "color"
  let hoverColor ← colorOf o "hover_color"
  let focusColor ← colorOf o "focus_color"
  return ⟨← x, ← y, ← width, ← height, color, hoverColor, focusColor⟩

theorem color_steady : Steady (Option Color) 2 := optional_steady Color.steady

theorem fields_steady : ∀ f ∈ record.fields, f.Steady 2 :=
  List.forall_iff_forall_mem.mp ⟨single_steady.field (by decide), single_steady.field (by decide),
    word32_steady.field (by decide), word32_steady.field (by decide),
    color_steady.field (by decide), color_steady.field (by decide),
    color_steady.field (by decide)⟩

theorem steady : Steady RectSpec 3 :=
  Record.steady rfl fields_steady (by decide) (by decide)

theorem lawful : record.Lawful := by
  constructor
  case apart =>
    simp only [record, List.pairwise_cons, List.forall_mem_cons, List.not_mem_nil, false_implies,
      implies_true, and_true, List.Pairwise.nil]
    and_intros <;>
      exact Field.of_apart (by decide) (fun _ _ => rfl) (fun _ _ => rfl) (fun _ _ _ => rfl)
  case given =>
    refine List.forall_iff_forall_mem.mp ?_
    and_intros <;> exact Field.of_given fun _ _ => rfl
  case blank => decide

theorem read_color (o : ObjectText) (key : String) :
    (o.read key : Option (Option (Option Color))).map Option.join = colorOf o key := by
  rw [ObjectText.read, colorOf]
  cases hlookup : lookup o.entries key with
  | none => rfl
  | some v =>
    have hown := (optional_reads Color.steady (lookup_isValue hlookup)).own_eq (by decide)
    rw [Option.mapM_some]
    show ((own v : Option (Option Color)).map some).map Option.join = _
    rw [hown]
    dsimp only
    split
    · rfl
    · rw [Option.map_map, Option.map_map]
      rfl

/-- The place and size of a rectangle must be there. -/
theorem spec_toOption (d : Draft) : d.spec.toOption = (do
    return ⟨← d.x, ← d.y, ← d.width, ← d.height, d.color.join, d.hoverColor.join,
      d.focusColor.join⟩) := by
  obtain ⟨x, y, width, height, _, _, _⟩ := d
  cases x with
  | none => rfl
  | some x =>
    cases y with
    | none => rfl
    | some y =>
      cases width with
      | none => rfl
      | some width => cases height <;> rfl

theorem own_object (o : ObjectText) : own o.chars =
    if o.Once ["x", "y", "width", "height", "color", "hover_color", "focus_color"] then filled o
    else none := by
  have hfill : fillFields (lookup o.entries) record.fields record.blank =
      (o.read "x").bind fun x => (o.read "y").bind fun y =>
      (o.read "width").bind fun width => (o.read "height").bind fun height =>
      (o.read "color").bind fun color => (o.read "hover_color").bind fun hoverColor =>
      (o.read "focus_color").bind fun focusColor =>
        some ⟨x, y, width, height, color, hoverColor, focusColor⟩ := by
    dsimp only [record]
    refine fillFields_of single_steady o (fun x => ({ x } : Draft)) rfl (fun _ => rfl) fun x => ?_
    refine fillFields_of single_steady o (fun y => ({ x, y } : Draft)) rfl (fun _ => rfl)
      fun y => ?_
    refine fillFields_of word32_steady o (fun width => ({ x, y, width } : Draft)) rfl (fun _ => rfl)
      fun width => ?_
    refine fillFields_of word32_steady o (fun height => ({ x, y, width, height } : Draft)) rfl
      (fun _ => rfl) fun height => ?_
    refine fillFields_of color_steady o (fun color => ({ x, y, width, height, color } : Draft)) rfl
      (fun _ => rfl) fun color => ?_
    refine fillFields_of color_steady o (fun hoverColor =>
      ({ x, y, width, height, color, hoverColor } : Draft)) rfl (fun _ => rfl) fun hoverColor => ?_
    refine fillFields_of color_steady o (fun focusColor =>
      (⟨x, y, width, height, color, hoverColor, focusColor⟩ : Draft)) rfl (fun _ => rfl)
      fun focusColor => ?_
    rfl
  have hcomplete : ∀ d, record.complete d = d.spec := fun _ => rfl
  rw [Record.own_object rfl lawful fields_steady (by decide) (by decide) o, hfill, filled,
    ← read_color, ← read_color, ← read_color]
  simp only [Option.bind_assoc, Option.bind_some, hcomplete, spec_toOption, Option.bind_eq_bind,
    Option.bind_map, Function.comp_def]
  rfl

/-- The parts of a rectangle. -/
def layout : Layout := .object [("x", .whole), ("y", .whole), ("width", .whole), ("height", .whole),
  ("color", .whole), ("hover_color", .whole), ("focus_color", .whole)]

theorem follows : Follows RectSpec layout := by
  intro v w h
  cases h with
  | same => rfl
  | @object keys o o' honce honce' hsome hvalues =>
    have hread {β : Type} [Codec β] {key : String} (hkey : (key, Layout.whole) ∈ _) :
        (o.read key : Option (Option β)) = o'.read key :=
      read_rearranged hsome hvalues follows_whole hkey
    have hkeys : o.Once ["x", "y", "width", "height", "color", "hover_color", "focus_color"] :=
      honce
    have hkeys' : o'.Once ["x", "y", "width", "height", "color", "hover_color", "focus_color"] :=
      honce'
    rw [own_object, own_object, if_pos hkeys, if_pos hkeys', filled, filled, hread (by simp),
      hread (by simp), hread (by simp), hread (by simp)]
    simp only [← read_color]
    rw [hread (by simp), hread (by simp), hread (by simp)]

end RectSpec

/-! ## Configurations -/

namespace Config

/-- The standard configuration with what an object has in its place. -/
def filled (o : ObjectText) : Option Config := do
  let window ← o.read "window"
  let clearColor ← o.read "clear_color"
  let rectangles ← o.read "rectangles"
  return ⟨window.getD standard.window, clearColor.getD standard.clearColor,
    rectangles.getD standard.rectangles⟩

theorem rectangles_steady : Steady (List RectSpec) 4 :=
  list_steady (by decide) (by decide) RectSpec.steady

theorem fields_steady : ∀ f ∈ record.fields, f.Steady 4 :=
  List.forall_iff_forall_mem.mp ⟨WindowConfig.steady.field (by decide),
    Color.steady.field (by decide), rectangles_steady.field (by decide)⟩

theorem steady : Steady Config 5 :=
  Record.steady rfl fields_steady (by decide) (by decide)

theorem lawful : record.Lawful := by
  constructor
  case apart =>
    simp only [record, List.pairwise_cons, List.forall_mem_cons, List.not_mem_nil, false_implies,
      implies_true, and_true, List.Pairwise.nil]
    and_intros <;>
      exact Field.of_apart (by decide) (fun _ _ => rfl) (fun _ _ => rfl) (fun _ _ _ => rfl)
  case given =>
    refine List.forall_iff_forall_mem.mp ?_
    and_intros <;> exact Field.of_given fun _ _ => rfl
  case blank => decide

theorem own_object (o : ObjectText) : own o.chars =
    if o.Once ["window", "clear_color", "rectangles"] then filled o else none := by
  have hfill : fillFields (lookup o.entries) record.fields record.blank =
      (o.read "window").bind fun window => (o.read "clear_color").bind fun clearColor =>
        (o.read "rectangles").bind fun rectangles => some ⟨window, clearColor, rectangles⟩ := by
    dsimp only [record]
    refine fillFields_of WindowConfig.steady o (fun window => ({ window } : Draft)) rfl
      (fun _ => rfl) fun window => ?_
    refine fillFields_of Color.steady o (fun clearColor => ({ window, clearColor } : Draft)) rfl
      (fun _ => rfl) fun clearColor => ?_
    refine fillFields_of rectangles_steady o
      (fun rectangles => ({ window, clearColor, rectangles } : Draft)) rfl
      (fun _ => rfl) fun rectangles => ?_
    rfl
  rw [Record.own_object rfl lawful fields_steady (by decide) (by decide) o, hfill]
  simp only [Option.bind_assoc]
  rfl

/-- The parts of a configuration. -/
def layout : Layout := .object [("window", WindowConfig.layout), ("clear_color", .whole),
  ("rectangles", .list RectSpec.layout)]

theorem follows : Follows Config layout := by
  intro v w h
  cases h with
  | same => rfl
  | @object keys o o' honce honce' hsome hvalues =>
    have hkeys : o.Once ["window", "clear_color", "rectangles"] := honce
    have hkeys' : o'.Once ["window", "clear_color", "rectangles"] := honce'
    have hrectangles : Follows (List RectSpec) (.list RectSpec.layout) :=
      follows_list (by decide) (by decide) RectSpec.steady RectSpec.follows
    rw [own_object, own_object, if_pos hkeys, if_pos hkeys', filled, filled,
      read_rearranged hsome hvalues WindowConfig.follows (by simp),
      read_rearranged hsome hvalues follows_whole (by simp),
      read_rearranged hsome hvalues hrectangles (by simp)]

/-- Reading fills the standard values. An object in any order, with unknown keys in between and
blanks around it, is read as the standard configuration with what it has in its place, and is
refused if something it has is refused or if a known key comes twice; so are windows and
rectangles, except that a rectangle must have its place and size. Lists are read element by
element. Texts that differ in order, in unknown keys and in blanks only are read as the same. -/
theorem reading_fills_standard_values :
    (∀ (o : ObjectText) (before after : Blanks), own (Padded.chars ⟨before, o.chars, after⟩) =
      if o.Once ["window", "clear_color", "rectangles"] then filled o else none) ∧
    (∀ (o : ObjectText) (before after : Blanks), own (Padded.chars ⟨before, o.chars, after⟩) =
      if o.Once ["title", "width", "height"] then WindowConfig.filled o else none) ∧
    (∀ (o : ObjectText) (before after : Blanks), own (Padded.chars ⟨before, o.chars, after⟩) =
      if o.Once ["x", "y", "width", "height", "color", "hover_color", "focus_color"] then
        RectSpec.filled o else none) ∧
    (∀ (items : List Padded) (gap : Blanks), (∀ p ∈ items, IsValue p.text) →
      own (listChars items gap) = items.mapM fun p => (own p.text : Option RectSpec)) ∧
    (∀ v w, Rearranged layout v w → (own v : Option Config) = own w) := by
  refine ⟨?_, ?_, ?_, ?_, follows⟩
  · intro o before after
    rw [steady.own_padded o.isValue, own_object]
  · intro o before after
    rw [WindowConfig.steady.own_padded o.isValue, WindowConfig.own_object]
  · intro o before after
    rw [RectSpec.steady.own_padded o.isValue, RectSpec.own_object]
  · intro items gap hv
    exact own_list (by decide) (by decide) RectSpec.steady hv gap

end Config

end Widgetry
