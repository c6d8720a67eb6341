import Widgetry.Config.Stored
import Widgetry.Proofs.Reread

/-!
# Saved configurations

The saved text of a configuration is read back member by member. Texts, sizes and the absence of a
color always come back, and so do numbers; what is lost are infinities and non-numbers.
-/

namespace Widgetry

open Json (Codec Document Kept Record Rereads ReadsDocument)

/-! ## Windows -/

namespace WindowConfig

theorem rereads (w : WindowConfig) : Rereads 2 w ∧ Json.reread w = some w := by
  have hreads : ∀ depth, 2 ≤ depth → ReadsDocument (Codec.read depth) (Codec.write w) (some w) := by
    intro depth hdepth
    have htitle := Json.string_rereads w.title
    have hwidth := Json.word32_rereads w.width
    have hheight := Json.word32_rereads w.height
    have hfinish : record.Finishes (depth - 1) record.blank
        [("title", Codec.write w.title), ("width", Codec.write w.width),
          ("height", Codec.write w.height)]
        ((Json.reread w.title).bind fun title => (Json.reread w.width).bind fun width =>
          (Json.reread w.height).bind fun height => some ⟨title, width, height⟩) :=
      .field htitle.1 (Nat.zero_le _) rfl rfl fun title _ =>
        .field hwidth.1 (Nat.zero_le _) rfl rfl fun width _ =>
          .field hheight.1 (Nat.zero_le _) rfl rfl fun height _ => .complete _
    rw [htitle.2, hwidth.2, hheight.2] at hfinish
    exact Record.read_reads hdepth hfinish
  exact ⟨Json.rereads_of_reads (by decide) hreads, Json.reread_of_reads (by decide) hreads⟩

theorem beq_iff (v w : WindowConfig) : (v == w) = true ↔ v = w := by
  cases v
  cases w
  show instBEqWindowConfig.beq _ _ = true ↔ _
  simp [instBEqWindowConfig.beq]

end WindowConfig

/-! ## Rectangles -/

namespace RectSpec

/-- The numbers in the text of a specification. -/
def numbers (s : RectSpec) : List Float32 :=
  s.x :: s.y ::
    ([s.color, s.hoverColor, s.focusColor].flatMap fun c => c.toList.flatMap Color.numbers)

/-- A color that is not set is not written, and leaves the draft as it is. -/
theorem finishes_color {depth : Nat} {draft : Draft} {key : String}
    {get : Draft → Option (Option Color)} {set : Draft → Option Color → Draft} {c : Option Color}
    {members : List (String × Document)} {q : Option Color → Option RectSpec} (hdepth : 2 ≤ depth)
    (hfield : record.field? key = some (.of key false get set)) (hnew : get draft = none)
    (hrest : ∀ d, Json.reread c = some d →
      record.Finishes depth ((d.map fun d => set draft (some d)).getD draft) members (q d)) :
    record.Finishes depth draft (colorMember key c ++ members) ((Json.reread c).bind q) := by
  have hread := Color.optional_rereads c
  cases c with
  | none =>
    rw [hread.2] at hrest ⊢
    exact hrest none rfl
  | some c =>
    show record.Finishes depth draft ((key, Codec.write c) :: members) _
    rw [← Json.write_some]
    refine .field hread.1 hdepth hfield hnew fun d hd => ?_
    have hset := hrest d hd
    rw [hread.2, Option.mapM_some, Option.map_eq_map] at hd
    obtain ⟨e, _, rfl⟩ := Option.map_eq_some_iff.mp hd
    exact hset

/-- A specification put together from its parts as they come back. -/
def restored (s : RectSpec) : Option RectSpec := do
  let x ← Json.reread s.x
  let y ← Json.reread s.y
  let color ← Json.reread s.color
  let hoverColor ← Json.reread s.hoverColor
  let focusColor ← Json.reread s.focusColor
  return ⟨x, y, s.width, s.height, color, hoverColor, focusColor⟩

theorem rereads (s : RectSpec) : Rereads 3 s ∧ Json.reread s = s.restored := by
  have hreads : ∀ depth, 3 ≤ depth →
      ReadsDocument (Codec.read depth) (Codec.write s) s.restored := by
    intro depth hdepth
    have hwidth := Json.word32_rereads s.width
    have hheight := Json.word32_rereads s.height
    have hfinish : record.Finishes (depth - 1) record.blank
        ([("x", Codec.write s.x), ("y", Codec.write s.y),
          ("width", Codec.write s.width), ("height", Codec.write s.height)]
          ++ (colorMember "color" s.color
            ++ (colorMember "hover_color" s.hoverColor
              ++ (colorMember "focus_color" s.focusColor ++ []))))
        ((Json.reread s.x).bind fun x => (Json.reread s.y).bind fun y =>
          (Json.reread s.width).bind fun width => (Json.reread s.height).bind fun height =>
          (Json.reread s.color).bind fun color => (Json.reread s.hoverColor).bind fun hoverColor =>
          (Json.reread s.focusColor).bind fun focusColor =>
            some ⟨x, y, width, height, color, hoverColor, focusColor⟩) := by
      refine .field (Json.single_rereads s.x).1 (Nat.zero_le _) rfl rfl fun x _ => ?_
      refine .field (Json.single_rereads s.y).1 (Nat.zero_le _) rfl rfl fun y _ => ?_
      refine .field hwidth.1 (Nat.zero_le _) rfl rfl fun width _ => ?_
      refine .field hheight.1 (Nat.zero_le _) rfl rfl fun height _ => ?_
      refine finishes_color (by omega) rfl rfl fun color _ => ?_
      refine finishes_color (by omega) rfl (by cases color <;> rfl) fun hoverColor _ => ?_
      refine finishes_color (by omega) rfl (by cases color <;> cases hoverColor <;> rfl)
        fun focusColor _ => ?_
      cases color <;> cases hoverColor <;> cases focusColor <;> exact .complete _
    rw [hwidth.2, hheight.2, List.append_nil] at hfinish
    simp only [← List.append_assoc] at hfinish
    exact Record.read_reads (by omega) hfinish
  exact ⟨Json.rereads_of_reads (by decide) hreads, Json.reread_of_reads (by decide) hreads⟩

theorem beq_iff (s t : RectSpec) : (s == t) = true ↔
    (s.x == t.x) ∧ (s.y == t.y) ∧ s.width = t.width ∧ s.height = t.height ∧
      (s.color == t.color) ∧ (s.hoverColor == t.hoverColor) ∧ (s.focusColor == t.focusColor) := by
  show instBEqRectSpec.beq s t = true ↔ _
  simp [instBEqRectSpec.beq]

theorem kept_parts (s : RectSpec) : Kept s ↔
    Kept s.x ∧ Kept s.y ∧ Kept s.color ∧ Kept s.hoverColor ∧ Kept s.focusColor := by
  rw [Kept, (rereads s).2]
  constructor
  · rintro ⟨t, ht, heq⟩
    obtain ⟨hx, hy, _, _, hc, hh, hf⟩ := (beq_iff t s).mp heq
    simp only [restored, Option.bind_eq_bind, Option.bind_eq_some_iff] at ht
    obtain ⟨x, hx', y, hy', c, hc', h, hh', f, hf', hmk⟩ := ht
    cases hmk
    exact ⟨⟨x, hx', hx⟩, ⟨y, hy', hy⟩, ⟨c, hc', hc⟩, ⟨h, hh', hh⟩, ⟨f, hf', hf⟩⟩
  · rintro ⟨⟨x, hx', hx⟩, ⟨y, hy', hy⟩, ⟨c, hc', hc⟩, ⟨h, hh', hh⟩, ⟨f, hf', hf⟩⟩
    refine ⟨⟨x, y, s.width, s.height, c, h, f⟩, ?_,
      (beq_iff _ _).mpr ⟨hx, hy, rfl, rfl, hc, hh, hf⟩⟩
    rw [restored, hx', hy', hc', hh', hf']
    rfl

theorem kept_color_iff (c : Option Color) :
    Kept c ↔ ∀ x ∈ c.toList.flatMap Color.numbers, Kept x := by
  rw [Json.kept_optional_iff (Color.optional_rereads c).2]
  cases c with
  | none => simp
  | some c => simp [Color.kept_iff]

theorem kept_iff (s : RectSpec) : Kept s ↔ ∀ x ∈ s.numbers, Kept x := by
  rw [kept_parts, kept_color_iff, kept_color_iff, kept_color_iff, numbers]
  simp only [List.forall_mem_cons, List.flatMap_cons, List.flatMap_nil, List.append_nil,
    List.forall_mem_append]

theorem color_reread {c d : Option Color} (h : Json.reread c = some d) :
    ∀ x ∈ c.toList.flatMap Color.numbers, ∃ y, Json.reread x = some y := by
  cases c with
  | none =>
    intro x hx
    cases hx
  | some c =>
    rw [(Color.optional_rereads _).2, Option.mapM_some, Option.map_eq_map] at h
    obtain ⟨e, he, _⟩ := Option.map_eq_some_iff.mp h
    simpa using Color.numbers_reread he

theorem numbers_reread {s t : RectSpec} (h : Json.reread s = some t) :
    ∀ x ∈ s.numbers, ∃ y, Json.reread x = some y := by
  simp only [(rereads s).2, restored, Option.bind_eq_bind, Option.bind_eq_some_iff] at h
  obtain ⟨x, hx, y, hy, c, hc, d, hd, f, hf, _⟩ := h
  simp only [numbers, List.forall_mem_cons, List.flatMap_cons, List.flatMap_nil, List.append_nil,
    List.forall_mem_append]
  exact ⟨⟨x, hx⟩, ⟨y, hy⟩, color_reread hc, color_reread hd, color_reread hf⟩

end RectSpec

/-! ## Configurations -/

namespace Config

/-- The numbers in the text of a configuration: the places of its rectangles, and the channels of
the colors that are not written as text. -/
def numbers (c : Config) : List Float32 :=
  c.clearColor.numbers ++ c.rectangles.flatMap RectSpec.numbers

/-- A configuration put together from its parts as they come back. -/
def restored (c : Config) : Option Config := do
  let clearColor ← Json.reread c.clearColor
  let rectangles ← Json.reread c.rectangles
  return ⟨c.window, clearColor, rectangles⟩

theorem rectangles_reread (specs : List RectSpec) :
    Rereads 4 specs ∧ Json.reread specs = specs.mapM Json.reread :=
  Json.list_rereads (by decide) (by decide) fun s _ => ⟨Json.solid_object _, s.rereads.1⟩

theorem rereads (c : Config) : Rereads 5 c ∧ Json.reread c = c.restored := by
  have hreads : ∀ depth, 5 ≤ depth →
      ReadsDocument (Codec.read depth) (Codec.write c) c.restored := by
    intro depth hdepth
    have hwindow := c.window.rereads
    have hfinish : record.Finishes (depth - 1) record.blank
        [("window", Codec.write c.window), ("clear_color", Codec.write c.clearColor),
          ("rectangles", Codec.write c.rectangles)]
        ((Json.reread c.window).bind fun window => (Json.reread c.clearColor).bind fun clearColor =>
          (Json.reread c.rectangles).bind fun rectangles =>
            some ⟨window, clearColor, rectangles⟩) := by
      refine .field hwindow.1 (by omega) rfl rfl fun window _ => ?_
      refine .field c.clearColor.rereads.1 (by omega) rfl rfl fun clearColor _ => ?_
      exact .field (rectangles_reread c.rectangles).1 (by omega) rfl rfl fun rectangles _ =>
        .complete _
    rw [hwindow.2, Option.bind_some] at hfinish
    exact Record.read_reads (by omega) hfinish
  exact ⟨Json.rereads_of_reads (by decide) hreads, Json.reread_of_reads (by decide) hreads⟩

theorem beq_iff (c d : Config) : (c == d) = true ↔
    c.window = d.window ∧ (c.clearColor == d.clearColor) ∧ (c.rectangles == d.rectangles) := by
  show instBEqConfig.beq c d = true ↔ _
  simp [instBEqConfig.beq, WindowConfig.beq_iff]

/-- A configuration is kept when the numbers in its text are finite. -/
theorem kept_iff (c : Config) : Kept c ↔ ∀ x ∈ c.numbers, Number.isFinite x = true := by
  have hspecs : Kept c.rectangles ↔ ∀ x ∈ c.rectangles.flatMap RectSpec.numbers, Kept x := by
    rw [Json.kept_list_iff (rectangles_reread c.rectangles).2]
    simp only [RectSpec.kept_iff, List.mem_flatMap, forall_exists_index, and_imp]
    exact ⟨fun h x s hs hx => h s hs x hx, fun h s hs x hx => h x s hs hx⟩
  simp only [← Json.kept_single_iff]
  rw [numbers, List.forall_mem_append, ← hspecs, ← Color.kept_iff, Kept, (rereads c).2]
  constructor
  · rintro ⟨d, hd, heq⟩
    obtain ⟨_, hclear, hrects⟩ := (beq_iff d c).mp heq
    simp only [restored, Option.bind_eq_bind, Option.bind_eq_some_iff] at hd
    obtain ⟨k, hk, l, hl, hmk⟩ := hd
    cases hmk
    exact ⟨⟨k, hk, hclear⟩, ⟨l, hl, hrects⟩⟩
  · rintro ⟨⟨k, hk, hclear⟩, ⟨l, hl, hrects⟩⟩
    refine ⟨⟨c.window, k, l⟩, ?_, (beq_iff _ _).mpr ⟨rfl, hclear, hrects⟩⟩
    rw [restored, hk, hl]
    rfl

/-- A configuration comes back only if all numbers in its text do. -/
theorem numbers_reread {c d : Config} (h : Json.reread c = some d) :
    ∀ x ∈ c.numbers, ∃ y, Json.reread x = some y := by
  simp only [(rereads c).2, restored, Option.bind_eq_bind, Option.bind_eq_some_iff] at h
  obtain ⟨k, hk, l, hl, _⟩ := h
  rw [(rectangles_reread c.rectangles).2] at hl
  rw [numbers, List.forall_mem_append]
  refine ⟨Color.numbers_reread hk, fun x hx => ?_⟩
  obtain ⟨s, hs, hx⟩ := List.mem_flatMap.mp hx
  obtain ⟨t, ht⟩ := Json.mem_reread hl s hs
  exact RectSpec.numbers_reread ht x hx

/-! ## Validation -/

theorem checkSpecs_congr {specs others : List RectSpec} (h : (specs == others) = true) :
    checkSpecs specs = checkSpecs others := by
  induction specs generalizing others with
  | nil =>
    cases others with
    | nil => rfl
    | cons t others => cases h
  | cons s specs ih =>
    cases others with
    | nil => cases h
    | cons t others =>
      rw [List.cons_beq_cons, Bool.and_eq_true] at h
      obtain ⟨_, _, hw, hh, _⟩ := (RectSpec.beq_iff s t).mp h.1
      rw [checkSpecs, checkSpecs, ih h.2, RectSpec.checkSize, RectSpec.checkSize, hw, hh]

/-- Only sizes are validated, and equal configurations have equal sizes. -/
theorem validate_congr {c d : Config} (h : (d == c) = true) : d.validate = c.validate := by
  obtain ⟨hwindow, _, hrects⟩ := (beq_iff d c).mp h
  rw [validate, validate, checkSpecs_congr hrects, viewport, viewport, hwindow]

theorem checkSpecs_error {specs : List RectSpec} {e : Error} (h : checkSpecs specs = .error e) :
    ∃ width height, e = .size width height := by
  induction specs with
  | nil => cases h
  | cons s specs ih =>
    rw [checkSpecs, RectSpec.checkSize] at h
    split at h
    · cases h
      exact ⟨_, _, rfl⟩
    · exact ih h

theorem validate_error {c : Config} {e : Error} (h : c.validate = .error e) :
    ∃ width height, e = .size width height := by
  rw [validate] at h
  split at h
  · cases h
    exact ⟨_, _, rfl⟩
  · exact checkSpecs_error h

/-! ## Saving and loading -/

/-- What is read is validated. -/
theorem ofJson_of_parse {text : String} {c : Config} (h : Json.parse text = .ok c) :
    ofJson text = (do c.validate; return c) := by
  rw [ofJson, h]
  rfl

theorem ofJson_eq_ok {text : String} {c : Config} :
    ofJson text = .ok c ↔ Json.parse text = .ok c ∧ c.validate = .ok () := by
  constructor
  · intro h
    cases hp : (Json.parse text : Except Json.Error Config) with
    | error e =>
      rw [ofJson, hp] at h
      cases h
    | ok d =>
      rw [ofJson_of_parse hp] at h
      cases hv : d.validate with
      | error e =>
        rw [hv] at h
        cases h
      | ok u =>
        rw [hv] at h
        cases h
        exact ⟨rfl, hv⟩
  · rintro ⟨hp, hv⟩
    rw [ofJson_of_parse hp, hv]
    rfl

/-- A valid configuration comes back through its saved text if and only if it is kept. -/
theorem reload_iff_kept {c : Config} (hvalid : c.validate = .ok ()) :
    (∃ d, ofJson c.toJson = .ok d ∧ (d == c) = true) ↔ Kept c := by
  constructor
  · rintro ⟨d, hd, heq⟩
    exact ⟨d, Json.reread_eq_some.mpr (ofJson_eq_ok.mp hd).1, heq⟩
  · rintro ⟨d, hd, heq⟩
    exact ⟨d, ofJson_eq_ok.mpr ⟨Json.reread_eq_some.mp hd, (validate_congr heq).trans hvalid⟩, heq⟩

/-- A number that is none makes the saved text unreadable. -/
theorem toJson_unreadable {c : Config} {x : Float32} (hx : x ∈ c.numbers)
    (hfinite : Number.isFinite x = false) : ∃ e, ofJson c.toJson = .error (.json e) := by
  have hlost : Json.reread c = none := by
    cases hr : Json.reread c with
    | none => rfl
    | some d =>
      obtain ⟨y, hy⟩ := numbers_reread hr x hx
      rw [(Json.single_rereads x).2, hfinite] at hy
      cases hy
  obtain ⟨e, he⟩ := Json.reread_eq_none.mp hlost
  refine ⟨e, ?_⟩
  rw [ofJson, toJson, he]
  rfl

/-- The saved text of a configuration whose numbers are finite is read as that configuration if it
is valid, and is refused with the same size otherwise. -/
theorem saved_text_reads_back (c : Config) (h : ∀ x ∈ c.numbers, Number.isFinite x = true) :
    match c.validate with
    | .ok () => ∃ d, ofJson c.toJson = .ok d ∧ (d == c) = true
    | .error e => ofJson c.toJson = .error e ∧ ∃ width height, e = .size width height := by
  have hkept := (kept_iff c).mpr h
  cases hvalid : c.validate with
  | ok u => exact (reload_iff_kept hvalid).mpr hkept
  | error e =>
    obtain ⟨d, hd, heq⟩ := hkept
    have hread := ofJson_of_parse (Json.reread_eq_some.mp hd)
    rw [validate_congr heq, hvalid] at hread
    exact ⟨hread, validate_error hvalid⟩

/-- A window title with escapes, colors in both forms and left out, and numbers near the ends of
their range. -/
def mixed : Config where
  window := ⟨"a \"b\" \\ \n \x01 é 😀", 1, 4294967295⟩
  clearColor := ⟨0.1, 1e-7, 3.4028235e38, -0.0⟩
  rectangles := [
    ⟨-1.5, 1e-45, 1, 2, some .black, none, some ⟨0.2, 0.4, 0.6, 0.5⟩⟩,
    ⟨16777216, 1.17549435e-38, 3, 4, none, some (.rgb 0.3 0.1 0.7), none⟩]

theorem saved_text_reads_back_mixed : ∃ d, ofJson mixed.toJson = .ok d ∧ (d == mixed) = true := by
  have hread := saved_text_reads_back mixed (by decide +kernel)
  have hvalid : mixed.validate = .ok () := rfl
  rw [hvalid] at hread
  exact hread

/-- Loading a configuration, saving it and loading it again gives it back if and only if the
numbers in its saved text are finite. A number that overflowed when the configuration was loaded
makes the saved text unreadable. -/
theorem reload_iff {text : String} {c : Config} (h : ofJson text = .ok c) :
    ((∃ d, ofJson c.toJson = .ok d ∧ (d == c) = true) ↔
        ∀ x ∈ c.numbers, Number.isFinite x = true) ∧
      ((∃ x ∈ c.numbers, Number.isFinite x = false) → ∃ e, ofJson c.toJson = .error (.json e)) := by
  rw [reload_iff_kept (ofJson_eq_ok.mp h).2, kept_iff]
  exact ⟨Iff.rfl, fun ⟨x, hx, hfinite⟩ => toJson_unreadable hx hfinite⟩

/-- A text whose clear color overflows. -/
def overflowing : String := "\x7b\"clear_color\":[1e39,0,0,1],\"rectangles\":[]\x7d"

theorem overflowing_loads :
    ∃ c, ofJson overflowing = .ok c ∧ ∃ x ∈ c.numbers, Number.isFinite x = false := by
  have htest : ((ofJson overflowing).toOption.any fun c =>
      c.numbers.any fun x => !Number.isFinite x) = true := by
    decide +kernel
  obtain ⟨c, hload, hany⟩ := (Option.any_eq_true _ _).mp htest
  obtain ⟨x, hx, hfinite⟩ := List.any_eq_true.mp hany
  refine ⟨c, ?_, x, hx, by simpa using hfinite⟩
  cases hread : ofJson overflowing with
  | ok d =>
    rw [hread] at hload
    exact congrArg _ (Option.some.inj hload)
  | error e =>
    rw [hread] at hload
    cases hload

theorem reload_iff_overflowing : ∃ c, ofJson overflowing = .ok c ∧
    ¬ (∀ x ∈ c.numbers, Number.isFinite x = true) ∧ ∃ e, ofJson c.toJson = .error (.json e) := by
  obtain ⟨c, hload, hlost⟩ := overflowing_loads
  obtain ⟨hiff, hunreadable⟩ := reload_iff hload
  obtain ⟨e, he⟩ := hunreadable hlost
  refine ⟨c, hload, fun hfinite => ?_, e, he⟩
  obtain ⟨d, hd, _⟩ := hiff.mpr hfinite
  rw [he] at hd
  cases hd

/-- A configuration can be loaded and become unreadable by being saved. -/
theorem saving_can_make_unreadable : ∃ c e, ofJson overflowing = .ok c ∧
    ofJson c.toJson = .error (.json e) := by
  obtain ⟨c, hload, x, hx, hfinite⟩ := overflowing_loads
  obtain ⟨e, he⟩ := toJson_unreadable hx hfinite
  exact ⟨c, e, hload, he⟩

end Config

end Widgetry
