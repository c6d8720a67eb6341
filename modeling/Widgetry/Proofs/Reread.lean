import Widgetry.Stored
import Widgetry.Proofs.Documents
import Widgetry.Proofs.Singles

/-!
# Values read from their own text

`reread a` is what comes back from the saved text of `a`, and `a` is kept if that is equal to `a`.
A value inside another one is read as it would be on its own (`Rereads`), so a value is kept when
its parts are. Infinities and non-numbers are the parts that are lost, since they are written as
`null`.
-/

namespace Widgetry.Json

variable {α β σ : Type}

/-- What is read from the saved text of a value, if anything is. -/
def reread [Codec α] (a : α) : Option α := (parse (pretty a)).toOption

/-- What comes back from the saved text of a value is equal to it. -/
def Kept [Codec α] [BEq α] (a : α) : Prop := ∃ b, reread a = some b ∧ (b == a) = true

instance [Codec α] [BEq α] (a : α) : Decidable (Kept a) :=
  decidable_of_iff ((reread a).any (· == a) = true) (Option.any_eq_true _ _)

theorem reread_eq_some [Codec α] {a b : α} : reread a = some b ↔ parse (pretty a) = .ok b := by
  rw [reread]
  cases (parse (pretty a) : Except Error α) with
  | ok c => simp [Except.toOption]
  | error e => simp [Except.toOption]

theorem reread_eq_none [Codec α] {a : α} :
    reread a = none ↔ ∃ e, (parse (pretty a) : Except Error α) = .error e := by
  rw [reread]
  cases (parse (pretty a) : Except Error α) with
  | ok c => simp [Except.toOption]
  | error e => simp [Except.toOption]

/-- Wherever the document of a value stands, with the given levels left, it is read as the text on
its own. -/
def Rereads [Codec α] (levels : Nat) (a : α) : Prop :=
  ∀ depth, levels ≤ depth → ReadsDocument (Codec.read depth) (Codec.write a) (reread a)

/-- After the value, only blanks may be left. -/
theorem parse_yields [Codec α] {text : String} {o : Option α} {left : List Char}
    (hleft : Blank left) (h : Yields o left (Codec.read depthLimit text.toList)) :
    (parse text : Except Error α).toOption = o := by
  rw [parse]
  cases o with
  | some a =>
    rw [bind_ok (yields_some.mp h), bind_ok (Reader.finish_blank hleft)]
    rfl
  | none =>
    have hwhole : Yields none [] ((do let a ← Codec.read depthLimit
                                      Reader.finish
                                      return a : Reader α) text.toList) := h.bind_none _
    obtain ⟨f, left, hf⟩ := yields_none.mp hwhole
    rw [hf]
    rfl

theorem parse_reads [Codec α] {text : String} {o : Option α}
    (h : Reads (Codec.read depthLimit) text.toList o) :
    (parse text : Except Error α).toOption = o := by
  have hread := h [] ended_nil
  rw [List.append_nil] at hread
  exact parse_yields blank_nil hread

section

variable [Codec α] {levels : Nat} {a : α} {o : Option α}

theorem reread_of_reads (hlevels : levels ≤ depthLimit)
    (h : ∀ depth, levels ≤ depth → ReadsDocument (Codec.read depth) (Codec.write a) o) :
    reread a = o := by
  refine parse_reads ?_
  rw [pretty, String.toList_ofList]
  exact h depthLimit hlevels 0 [] blank_nil

theorem rereads_of_reads (hlevels : levels ≤ depthLimit)
    (h : ∀ depth, levels ≤ depth → ReadsDocument (Codec.read depth) (Codec.write a) o) :
    Rereads levels a := by
  rw [Rereads, reread_of_reads hlevels h]
  exact h

end

/-! ## Numbers and strings -/

theorem word32_rereads (n : UInt32) : Rereads 0 n ∧ reread n = some n := by
  have h : ∀ depth, 0 ≤ depth → ReadsDocument (Codec.read depth) (Codec.write n) (some n) :=
    fun _ _ _ _ hpre => word32_reads hpre n
  exact ⟨rereads_of_reads (by decide) h, reread_of_reads (by decide) h⟩

theorem string_rereads (s : String) : Rereads 0 s ∧ reread s = some s := by
  have h : ∀ depth, 0 ≤ depth → ReadsDocument (Codec.read depth) (Codec.write s) (some s) :=
    fun _ _ _ _ hpre => string_reads hpre _ s
  exact ⟨rereads_of_reads (by decide) h, reread_of_reads (by decide) h⟩

/-- A number is written as `null` or as a numeral that is read as the number. -/
theorem single_cases (x : Float32) :
    (Number.isFinite x = false ∧ Document.single x = .null) ∨
      (Number.isFinite x = true ∧ ∃ text n, Document.single x = .number text ∧
        Reads Reader.numeral text (some n) ∧ n.toFloat32 = x ∧
        ∃ c tail, text = c :: tail ∧ (c = '-' || Numeral.isDigit c) = true) := by
  cases hfinite : Number.isFinite x with
  | true =>
    obtain ⟨text, n, htext, hread, hn, hhead⟩ := Number.text_reads_back hfinite
    exact .inr ⟨rfl, text, n, by rw [Document.single, htext], hread, hn, hhead⟩
  | false =>
    refine .inl ⟨rfl, ?_⟩
    rw [Number.isFinite] at hfinite
    rw [Document.single]
    cases hu : Number.unpack32 x with
    | finite negative m e =>
      rw [hu] at hfinite
      cases hfinite
    | nan => rfl
    | infinite negative => rfl

theorem single_rereads (x : Float32) :
    Rereads 0 x ∧ reread x = if Number.isFinite x then some x else none := by
  have h : ∀ depth, 0 ≤ depth → ReadsDocument (Codec.read depth) (Codec.write x)
      (if Number.isFinite x then some x else none) := by
    intro depth _ level pre hpre
    show Reads Reader.single (pre ++ (Document.single x).pretty level) _
    rcases single_cases x with ⟨hfinite, hdoc⟩ | ⟨hfinite, text, n, hdoc, hread, hn, hhead⟩
    · rw [hdoc, hfinite]
      exact single_null hpre
    · have htext := single_reads hpre hread hhead
      rw [Option.map_some, hn] at htext
      rw [hdoc, hfinite]
      exact htext
  exact ⟨rereads_of_reads (Nat.zero_le _) h, reread_of_reads (Nat.zero_le _) h⟩

/-- A number is kept if and only if it is one. -/
theorem kept_single_iff (x : Float32) : Kept x ↔ Number.isFinite x = true := by
  rw [Kept, (single_rereads x).2]
  cases hfinite : Number.isFinite x with
  | true => exact ⟨fun _ => rfl, fun _ => ⟨x, rfl, Number.beq_self hfinite⟩⟩
  | false => simp

theorem solid_single (x : Float32) : Solid (Document.single x) := by
  rcases single_cases x with ⟨_, hdoc⟩ | ⟨_, text, _, hdoc, _, _, c, tail, htext, hc⟩
  · rw [hdoc]
    exact solid_null
  · intro level
    refine ⟨c, tail, by rw [hdoc, Document.pretty, htext], isSpace_numeral hc, ?_⟩
    rintro rfl
    cases hc

/-! ## Parts of a value -/

theorem list_rereads [Codec α] {levels : Nat} (hone : 1 ≤ levels) (hlevels : levels < depthLimit)
    {items : List α} (h : ∀ a ∈ items, Solid (Codec.write a) ∧ Rereads levels a) :
    Rereads (levels + 1) items ∧ reread items = items.mapM reread := by
  have hreads : ∀ depth, levels + 1 ≤ depth →
      ReadsDocument (Codec.read depth) (Codec.write items) (items.mapM reread) := by
    intro depth hdepth
    exact listOf_reads (by omega) fun a ha => ⟨(h a ha).1, (h a ha).2 (depth - 1) (by omega)⟩
  exact ⟨rereads_of_reads hlevels hreads, reread_of_reads hlevels hreads⟩

theorem write_some [Codec α] (a : α) : Codec.write (some a) = Codec.write a := rfl

theorem optional_none {item : Reader α} :
    ReadsDocument (Reader.optional item) .null (some none) := by
  intro level pre hpre rest _
  rw [Document.pretty, List.append_assoc, List.cons_append, Reader.optional,
    Reader.peek_bind hpre rfl, yields_some]
  rfl

theorem optional_some {item : Reader α} {d : Document} {o : Option α}
    (h : ReadsDocument item d o)
    (hhead : ∀ level, ∃ c tail, d.pretty level = c :: tail ∧ Reader.isSpace c = false ∧ c ≠ 'n') :
    ReadsDocument (Reader.optional item) d (o.map some) := by
  intro level pre hpre rest hrest
  obtain ⟨c, tail, htext, hc, hn⟩ := hhead level
  have hitem := h level [] blank_nil rest hrest
  rw [List.nil_append, htext, List.cons_append] at hitem
  have hne : some c = some 'n' → False := fun heq => hn (Option.some.inj heq)
  rw [htext, List.append_assoc, List.cons_append, Reader.optional, Reader.peek_bind hpre hc]
  simp only
  exact hitem.map some

theorem optional_rereads [Codec α] {levels : Nat} (hlevels : levels ≤ depthLimit) {o : Option α}
    (h : ∀ a ∈ o, Rereads levels a ∧ ∀ level, ∃ c tail,
      (Codec.write a).pretty level = c :: tail ∧ Reader.isSpace c = false ∧ c ≠ 'n') :
    Rereads levels o ∧ reread o = o.mapM reread := by
  have hreads : ∀ depth, levels ≤ depth →
      ReadsDocument (Codec.read depth) (Codec.write o) (o.mapM reread) := by
    intro depth hdepth
    cases o with
    | none => exact optional_none
    | some a =>
      obtain ⟨ha, hhead⟩ := h a rfl
      rw [Option.mapM_some, write_some, Option.map_eq_map]
      exact optional_some (ha depth hdepth) hhead
  exact ⟨rereads_of_reads hlevels hreads, reread_of_reads hlevels hreads⟩

theorem kept_list_iff [Codec α] [BEq α] {items : List α} (h : reread items = items.mapM reread) :
    Kept items ↔ ∀ a ∈ items, Kept a := by
  rw [Kept, h]
  clear h
  induction items with
  | nil =>
    constructor
    · intro _ a ha
      cases ha
    · exact fun _ => ⟨[], rfl, rfl⟩
  | cons a items ih =>
    rw [List.forall_mem_cons, ← ih, List.mapM_cons]
    constructor
    · rintro ⟨l, hl, heq⟩
      simp only [Option.bind_eq_bind, Option.bind_eq_some_iff] at hl
      obtain ⟨b, hb, bs, hbs, hcons⟩ := hl
      cases hcons
      rw [List.cons_beq_cons, Bool.and_eq_true] at heq
      exact ⟨⟨b, hb, heq.1⟩, ⟨bs, hbs, heq.2⟩⟩
    · rintro ⟨⟨b, hb, hba⟩, ⟨bs, hbs, heq⟩⟩
      refine ⟨b :: bs, by rw [hb, hbs]; rfl, ?_⟩
      rw [List.cons_beq_cons, hba, heq]
      rfl

theorem kept_optional_iff [Codec α] [BEq α] {o : Option α} (h : reread o = o.mapM reread) :
    Kept o ↔ ∀ a ∈ o, Kept a := by
  rw [Kept, h]
  cases o with
  | none =>
    constructor
    · intro _ a ha
      cases ha
    · exact fun _ => ⟨none, rfl, rfl⟩
  | some a =>
    rw [Option.mapM_some, Option.map_eq_map]
    constructor
    · rintro ⟨p, hp, heq⟩ d hd
      cases hd
      obtain ⟨b, hb, rfl⟩ := Option.map_eq_some_iff.mp hp
      exact ⟨b, hb, heq⟩
    · intro hkept
      obtain ⟨b, hb, heq⟩ := hkept a rfl
      exact ⟨some b, by rw [hb]; rfl, heq⟩

/-- A list comes back only if all of its elements do. -/
theorem mem_reread [Codec α] {items back : List α} (h : items.mapM reread = some back) :
    ∀ a ∈ items, ∃ b, reread a = some b := by
  induction items generalizing back with
  | nil =>
    intro a ha
    cases ha
  | cons a items ih =>
    simp only [List.mapM_cons, Option.bind_eq_bind, Option.bind_eq_some_iff] at h
    obtain ⟨b, hb, bs, hbs, _⟩ := h
    exact List.forall_mem_cons.mpr ⟨⟨b, hb⟩, ih hbs⟩

theorem Field.of_reads [Codec β] {name : String} {required : Bool} {get : σ → Option β}
    {set : σ → β → σ} {draft : σ} {depth : Nat} {d : Document} {o : Option β}
    (h : ReadsDocument (Codec.read depth) d o) :
    ReadsDocument ((Field.of name required get set).read depth draft) d (o.map (set draft)) :=
  fun level pre hpre rest hrest => (h level pre hpre rest hrest).map (set draft)

/-- A field that is written is read into the draft. -/
theorem Record.Finishes.field [Codec β] {r : Record σ α} {depth levels : Nat} {draft : σ}
    {key : String} {required : Bool} {get : σ → Option β} {set : σ → β → σ} {b : β}
    {members : List (String × Document)} {q : β → Option α} (hread : Rereads levels b)
    (hdepth : levels ≤ depth) (hfield : r.field? key = some (.of key required get set))
    (hnew : get draft = none)
    (hrest : ∀ v, reread b = some v → r.Finishes depth (set draft v) members (q v)) :
    r.Finishes depth draft ((key, Codec.write b) :: members) ((reread b).bind q) := by
  have hgiven : (Field.of key required get set).given draft = false := by
    show (get draft).isSome = false
    rw [hnew]
    rfl
  exact .member hfield hgiven (Field.of_reads (hread depth hdepth)) hrest

end Widgetry.Json

/-! ## Colors -/

namespace Widgetry.Color

open Json

-- How digits are read plays no part here, and unfolding it makes the equations of `numbers` slow.
attribute [local irreducible] ofDigits

/-- The number that a value is, if it is one. -/
def single? : Json → Option Float32
  | .number n => some n.toFloat32
  | _ => none

/-- The bits of a color stand for it. -/
@[simp] theorem pattern_color (c : Color) : c.pattern.color = c := by
  simp only [pattern, Pattern.color, Float32.ofBits_toBits]

theorem Form.color_text (hex : String) : (Form.text hex).color = ofHex hex := by
  rw [Form.color, Form.pattern]
  cases ofHex hex with
  | ok c => exact congrArg Except.ok c.pattern_color
  | error e => rfl

theorem form_eq (c : Color) :
    c.form = if c.hasExactHex then .text c.toHex else .channels c.pattern := by
  rw [form, Pattern.form, pattern_color]

theorem ofJson?_list (r g b a : Json) : Form.ofJson? (.list [r, g, b, a]) =
    (do return .channels (Color.pattern ⟨← single? r, ← single? g, ← single? b, ← single? a⟩)) := by
  cases r <;> try rfl
  cases g <;> try rfl
  cases b <;> try rfl
  cases a <;> rfl

theorem ofJson_list (r g b a : Json) : (ofJson (.list [r, g, b, a])).toOption =
    (do return ⟨← single? r, ← single? g, ← single? b, ← single? a⟩) := by
  have hcolor (c : Color) : (Form.channels c.pattern).color = .ok c :=
    congrArg Except.ok c.pattern_color
  rw [ofJson, ofJson?_list]
  cases single? r <;> cases single? g <;> cases single? b <;> cases single? a <;> try rfl
  simp only [hcolor, Option.pure_def, Option.bind_eq_bind, Option.bind_some]
  rfl

/-- As a value of any kind, a number is read as far as it is read as a number. -/
theorem value_single (x : Float32) :
    ∃ j, (∀ depth, 1 ≤ depth → ReadsDocument (Reader.value depth) (Document.single x) j) ∧
      reread x = j.bind single? := by
  rw [(single_rereads x).2]
  rcases single_cases x with ⟨hfinite, hdoc⟩ | ⟨hfinite, text, n, hdoc, hread, hn, hhead⟩
  · refine ⟨some .null, fun depth hdepth level pre hpre rest _ => ?_, by rw [hfinite]; rfl⟩
    obtain ⟨depth, rfl⟩ : ∃ k, depth = k + 1 := ⟨depth - 1, by omega⟩
    rw [hdoc, Document.pretty, List.append_assoc, List.cons_append, Reader.value,
      Reader.peek_bind hpre rfl, yields_some]
    rfl
  · refine ⟨some (.number n), fun depth hdepth level pre hpre rest hrest => ?_, ?_⟩
    · obtain ⟨depth, rfl⟩ : ∃ k, depth = k + 1 := ⟨depth - 1, by omega⟩
      rw [hdoc]
      exact value_numeral hpre hread hhead depth rest hrest
    · rw [hfinite, if_pos rfl, Option.bind_some, single?, hn]

/-- The numbers in the text of a color: none if it is written as text. -/
def numbers (c : Color) : List Float32 :=
  match c.form with
  | .text _ => []
  | .channels p => [p.color.r, p.color.g, p.color.b, p.color.a]

/-- What is read from a stored form. -/
def Form.reread : Form → Option Color
  | .text hex => (ofHex hex).toOption
  | .channels p =>
    do return ⟨← Json.reread p.color.r, ← Json.reread p.color.g, ← Json.reread p.color.b,
      ← Json.reread p.color.a⟩

theorem Form.reads (f : Form) {depth : Nat} (hdepth : 2 ≤ depth) :
    ∃ j, ReadsDocument (Reader.value depth) f.document j ∧
      f.reread = j.bind fun j => (ofJson j).toOption := by
  obtain ⟨depth, rfl⟩ : ∃ k, depth = k + 1 := ⟨depth - 1, by omega⟩
  cases f with
  | text hex =>
    refine ⟨some (.string hex), fun _ _ hpre => value_string hpre depth hex, ?_⟩
    rw [Form.reread, Option.bind_some, ofJson, Form.ofJson?]
    simp only [Form.color_text]
    cases ofHex hex <;> rfl
  | channels p =>
    obtain ⟨shown, hshown⟩ := Classical.skolem.mp value_single
    refine ⟨_, value_list (by omega) fun x _ => ⟨solid_single x, (hshown x).1 depth (by omega)⟩, ?_⟩
    rw [Form.reread, (hshown p.color.r).2, (hshown p.color.g).2, (hshown p.color.b).2,
      (hshown p.color.a).2]
    simp only [List.mapM_cons, List.mapM_nil]
    cases shown p.color.r <;> cases shown p.color.g <;> cases shown p.color.b <;>
      cases shown p.color.a <;> simp [ofJson_list]

theorem rereads (c : Color) : Rereads 2 c ∧ Json.reread c = c.form.reread := by
  have hreads : ∀ depth, 2 ≤ depth →
      ReadsDocument (Codec.read depth) (Codec.write c) c.form.reread := by
    intro depth hdepth level pre hpre rest hrest
    obtain ⟨j, hread, heq⟩ := c.form.reads hdepth
    rw [heq]
    refine (hread level pre hpre rest hrest).bind fun v _ => ?_
    cases hv : ofJson v with
    | ok d => exact ⟨rfl, rfl⟩
    | error p => exact yields_none.mpr ⟨_, _, rfl⟩
  exact ⟨rereads_of_reads (by decide) hreads, reread_of_reads (by decide) hreads⟩

theorem Form.document_head (f : Form) (level : Nat) :
    ∃ c tail, f.document.pretty level = c :: tail ∧ Reader.isSpace c = false ∧ c ≠ 'n' := by
  cases f with
  | text hex => exact ⟨'"', _, rfl, rfl, by decide⟩
  | channels c =>
    exact ⟨'[', _, by rw [Form.document, List.map_cons, Document.pretty], rfl, by decide⟩

theorem optional_rereads (c : Option Color) : Rereads 2 c ∧ Json.reread c = c.mapM Json.reread :=
  Json.optional_rereads (by decide) fun d _ => ⟨(rereads d).1, d.form.document_head⟩

theorem beq_iff (c d : Color) :
    (c == d) = true ↔ (c.r == d.r) ∧ (c.g == d.g) ∧ (c.b == d.b) ∧ (c.a == d.a) := by
  show instBEqColor.beq c d = true ↔ _
  simp [instBEqColor.beq]

theorem kept_channels (c : Color) :
    (∃ d, (Form.channels c.pattern).reread = some d ∧ (d == c) = true) ↔
      Kept c.r ∧ Kept c.g ∧ Kept c.b ∧ Kept c.a := by
  constructor
  · rintro ⟨d, hd, heq⟩
    obtain ⟨hr, hg, hb, ha⟩ := (beq_iff d c).mp heq
    simp only [Form.reread, pattern_color, Option.bind_eq_bind, Option.bind_eq_some_iff] at hd
    obtain ⟨r, hr', g, hg', b, hb', a, ha', hmk⟩ := hd
    cases hmk
    exact ⟨⟨r, hr', hr⟩, ⟨g, hg', hg⟩, ⟨b, hb', hb⟩, ⟨a, ha', ha⟩⟩
  · rintro ⟨⟨r, hr', hr⟩, ⟨g, hg', hg⟩, ⟨b, hb', hb⟩, ⟨a, ha', ha⟩⟩
    refine ⟨⟨r, g, b, a⟩, ?_, (beq_iff _ _).mpr ⟨hr, hg, hb, ha⟩⟩
    rw [Form.reread, pattern_color, hr', hg', hb', ha']
    rfl

/-- A color is kept when the numbers in its text are: a text that stands for it exactly has none. -/
theorem kept_iff (c : Color) : Kept c ↔ ∀ x ∈ c.numbers, Kept x := by
  rw [Kept, (rereads c).2, numbers, form_eq]
  cases hexact : c.hasExactHex with
  | true =>
    simp only [if_true, List.not_mem_nil, false_implies, implies_true, iff_true]
    rw [hasExactHex] at hexact
    cases hd : ofHex c.toHex with
    | ok d =>
      rw [hd] at hexact
      exact ⟨d, by rw [Form.reread, hd]; rfl, hexact⟩
    | error e =>
      rw [hd] at hexact
      cases hexact
  | false =>
    simp only [Bool.false_eq_true, if_false, kept_channels, pattern_color, List.forall_mem_cons,
      List.not_mem_nil, false_implies, implies_true, and_true]

/-- A color comes back only if all numbers in its text do. -/
theorem numbers_reread {c d : Color} (h : Json.reread c = some d) :
    ∀ x ∈ c.numbers, ∃ y, Json.reread x = some y := by
  rw [(rereads c).2] at h
  rw [numbers]
  cases hform : c.form with
  | text hex =>
    intro x hx
    cases hx
  | channels e =>
    simp only [hform, Form.reread, Option.bind_eq_bind, Option.bind_eq_some_iff] at h
    obtain ⟨r, hr, g, hg, b, hb, a, ha, _⟩ := h
    simp only [List.forall_mem_cons]
    exact ⟨⟨r, hr⟩, ⟨g, hg⟩, ⟨b, hb⟩, ⟨a, ha⟩, fun x hx => by cases hx⟩

end Widgetry.Color
