import Widgetry.Proofs.Steady
import Mathlib.Data.List.Pairwise

/-!
# Records filled from objects

The members of an object are read into a draft one after the other. Each field is read as it is on
its own, so what comes of an object does not depend on where it stands (`Record.reads_value`), and
since the fields do not get in each other's way it does not depend on the order of the members
either (`Record.take_eq_fill`): every field looks up its key.
-/

namespace Widgetry.Json

open Reader

variable {α β σ : Type}

/-- What a field on its own makes of a draft. -/
def Field.own (f : Field σ) (text : List Char) (draft : σ) : Option σ :=
  (f.read depthLimit draft).alone text

/-- A field reads every well-formed value as on its own, if the given levels are left. -/
def Field.Steady (f : Field σ) (levels : Nat) : Prop :=
  ∀ v, IsValue v → ∀ draft, ReadsValue (fun depth => f.read depth draft) levels v (f.own v draft)

theorem alone_map (r : Reader β) (g : β → σ) (text : List Char) :
    Reader.alone (do return g (← r)) text = (r.alone text).map g := by
  have hread : ∃ o rest, Yields o rest (r text) := by
    cases h : r text with
    | ok b left => exact ⟨some b, left, rfl, rfl⟩
    | error f left => exact ⟨none, left, rfl⟩
  obtain ⟨o, rest, h⟩ := hread
  rw [(h.map g).alone_eq, h.alone_eq]

theorem Field.of_own [Codec β] (name : String) (required : Bool) (get : σ → Option β)
    (set : σ → β → σ) (text : List Char) (draft : σ) :
    (Field.of name required get set).own text draft =
      ((Codec.read depthLimit : Reader β).alone text).map (set draft) :=
  alone_map _ (set draft) text

theorem Steady.alone_eq [Codec β] {levels : Nat} (h : Steady β levels) {v : List Char}
    (hv : IsValue v) : (Codec.read depthLimit : Reader β).alone v = own v :=
  (h.reads v hv depthLimit h.levels_le [] blank_nil).alone

theorem Steady.field [Codec β] {levels more : Nat} (h : Steady β levels) (hmore : levels ≤ more)
    {name : String} {required : Bool} {get : σ → Option β} {set : σ → β → σ} :
    (Field.of name required get set).Steady more := by
  intro v hv draft depth hdepth pre hpre rest hrest
  rw [Field.of_own, h.alone_eq hv]
  exact (h.reads v hv depth (Nat.le_trans hmore hdepth) pre hpre rest hrest).map (set draft)

/-! ## Objects -/

/-- What comes of a draft when the given members are read into it: unknown ones are passed over,
and a field that is there already is refused. -/
def Record.take (r : Record σ α) : List Member → σ → Option σ
  | [], draft => some draft
  | m :: members, draft =>
    m.name?.bind fun key =>
      match r.field? key with
      | some f =>
        if f.given draft then none else (f.own m.value.text draft).bind (r.take members)
      | none => r.take members draft

section Objects

variable {r : Record σ α} {levels depth : Nat} {members : List Member}

theorem Record.membersInto_listed (hfields : ∀ f ∈ r.fields, f.Steady levels)
    (hdepth : levels ≤ depth) (hkeys : ∀ m ∈ members, IsQuoted m.key.text)
    (hvalues : ∀ m ∈ members, IsValue m.value.text) (draft : σ) (first : Bool) {fuel : Nat}
    (hfuel : members.length < fuel) {pre : List Char} (hpre : Blank pre) (gap : Blanks)
    (rest : List Char) :
    Yields (r.take members draft) ('\x7d' :: rest) (r.membersInto depth fuel first draft
      (pre ++ (listed first (members.map Member.chars) ++ (gap ++ '\x7d' :: rest)))) := by
  induction members generalizing draft first fuel pre with
  | nil =>
    obtain ⟨fuel, rfl⟩ : ∃ k, fuel = k + 1 := ⟨fuel - 1, by omega⟩
    have hend : nextKey first (pre ++ (gap ++ '\x7d' :: rest)) = .ok none ('\x7d' :: rest) :=
      (nextKey_append hpre first _).trans (nextKey_end gap.2 first rest)
    exact yields_some.mpr (bind_ok hend)
  | cons m members ih =>
    obtain ⟨fuel, rfl⟩ : ∃ k, fuel = k + 1 := ⟨fuel - 1, by omega⟩
    obtain ⟨hkey, hkeys⟩ := List.forall_mem_cons.mp hkeys
    obtain ⟨hvalue, hvalues⟩ := List.forall_mem_cons.mp hvalues
    have hlater := ended_append m.value.after.2
      (listed_ended (members.map Member.chars) gap.2 (rfl : endsValue '\x7d' = true) rest)
    have hrest (draft : σ) := ih hkeys hvalues draft false
      (show members.length < fuel by simpa using hfuel) m.value.after.2
    rw [List.map_cons, listed, Record.take]
    simp only [List.append_assoc]
    rw [Record.membersInto, bind_congr_left (nextKey_append hpre first _)]
    refine (nextKey_member hkey first _).bind_map fun key _ => ?_
    dsimp only
    rw [Padded.chars]
    simp only [List.append_assoc]
    cases hfield : r.field? key with
    | none =>
      dsimp only
      rw [bind_ok (colon_blank m.key.after.2 _),
        bind_ok (passValue_value hvalue m.value.before.2 hlater)]
      exact hrest draft
    | some f =>
      dsimp only
      split
      · exact (fails_later _).yields _ _
      · have hread := hfields f (List.mem_of_find?_eq_some hfield) m.value.text hvalue draft depth
          hdepth m.value.before m.value.before.2 _ hlater
        rw [List.append_assoc] at hread
        rw [bind_ok (colon_blank m.key.after.2 _)]
        exact hread.bind fun d _ => hrest d

/-- What a record reads from an object, wherever it stands. -/
theorem Record.read_object (hfields : ∀ f ∈ r.fields, f.Steady levels) (hdepth : levels < depth)
    (htwo : 2 ≤ depth) (hkeys : ∀ m ∈ members, IsQuoted m.key.text)
    (hvalues : ∀ m ∈ members, IsValue m.value.text) (gap : Blanks) {pre : List Char}
    (hpre : Blank pre) : Reads (r.read depth) (pre ++ objectChars members gap)
      ((r.take members r.blank).bind fun draft => (r.complete draft).toOption) := by
  refine reads_settled hpre rfl ?_
  intro rest _
  simp only [enter, if_neg (show ¬ depth ≤ 1 by omega)]
  rw [List.cons_append, advance_bind, List.append_assoc, List.append_assoc]
  have hlen := length_le_listed (members.map Member.chars)
  rw [List.length_map] at hlen
  refine Record.members_closed ((Record.membersInto_listed hfields (by omega) hkeys hvalues r.blank
    true ?_ blank_nil gap rest).bind fun draft _ => r.finish_yields draft _)
  simp only [List.length_append, List.length_cons]
  omega

end Objects

/-! ## Lists of fields -/

theorem closedBy_ok {r : Reader β} {k : β → Reader α} {s left : List Char} {b : β}
    (h : r s = .ok b left) (close : Reader Unit) :
    closedBy (r >>= k) close s = closedBy (k b) close left := by
  rw [closedBy, closedBy, bind_ok h]

/-- A body in two parts, of which the second goes on with what the first gives. -/
theorem Yields.closedBy_bind {r : Reader β} {k : β → Reader α} {close : Reader Unit} {o : Option β}
    {q : β → Option α} {s left rest : List Char} (h : Yields o left (r s))
    (hk : ∀ b, o = some b → Yields (q b) rest (Reader.closedBy (k b) close left)) :
    Yields (o.bind q) rest (Reader.closedBy (r >>= k) close s) := by
  cases o with
  | none =>
    have hfail : Yields none [] ((r >>= k) s) := h.bind_none k
    exact hfail.closedBy_none close
  | some b =>
    rw [closedBy_ok (yields_some.mp h)]
    exact hk b rfl

theorem closeList_append {pre : List Char} (hpre : Blank pre) (s : List Char) :
    closeList (pre ++ s) = closeList s :=
  bind_congr_left (peek_append hpre s) _

theorem closeList_comma (rest s : List Char) : Yields none rest (closeList (',' :: s)) := by
  rw [closeList, peek_cons rfl]
  refine Fails.yields (Fails.bind _ fun _ => Fails.bind _ fun o => ?_) rest _
  split <;> exact fails_next _

/-- A list with more elements than there are fields does not end here. -/
theorem closeList_item {p : Padded} (hv : IsValue p.text) (first : Bool) (rest s : List Char) :
    Yields none rest
      (closeList ((if first then [] else [',']) ++ (p.before ++ (p.text ++ s)))) := by
  cases first with
  | true =>
    obtain ⟨c, tail, hcons, hc, hend⟩ := value_head hv
    rw [if_pos rfl, List.nil_append, hcons, List.cons_append, closeList_append p.before.2]
    by_cases hcomma : c = ','
    · rw [hcomma]
      exact closeList_comma rest _
    · rw [closeList, peek_cons hc]
      simp only
      exact (fails_next _).yields rest _
  | false => exact closeList_comma rest _

/-- What comes of a draft when a list of values is read into the given fields: fields that need
not be given may be left out at the end, and no value may be left. -/
def Record.takeList (r : Record σ α) : List (Field σ) → List Padded → σ → Option α
  | [], [], draft => (r.complete draft).toOption
  | [], _ :: _, _ => none
  | f :: fields, [], draft => if f.required then none else r.takeList fields [] draft
  | f :: fields, p :: items, draft => (f.own p.text draft).bind (r.takeList fields items)

/-- The reader of a list of the given fields, from the draft on. -/
def Record.readList (r : Record σ α) (fields : List (Field σ)) (depth index : Nat) (first : Bool)
    (draft : σ) : Reader α :=
  closedBy (do r.finish (← r.elementsInto depth index fields first draft)) closeList

/-- A list of the fields, by induction on the fields. -/
theorem Record.readList_listed (r : Record σ α) {levels depth : Nat} {fields : List (Field σ)}
    (hfields : ∀ f ∈ fields, f.Steady levels) (hdepth : levels ≤ depth) {items : List Padded}
    (hv : ∀ p ∈ items, IsValue p.text) (index : Nat) (first : Bool) (draft : σ)
    {pre gap : List Char} (hpre : Blank pre) (hgap : Blank gap) (rest : List Char) :
    Yields (r.takeList fields items draft) rest (r.readList fields depth index first draft
      (pre ++ (listed first (items.map Padded.chars) ++ (gap ++ ']' :: rest)))) := by
  induction fields generalizing items index first draft pre gap with
  | nil =>
    cases items with
    | nil =>
      refine Yields.closedBy (r.finish_yields draft _) ?_
      exact (closeList_append hpre _).trans (closeList_blank hgap rest)
    | cons p items =>
      have hmore := closeList_item (hv p List.mem_cons_self) first rest
        (p.after ++ (listed false (items.map Padded.chars) ++ (gap ++ ']' :: rest)))
      rw [← closeList_append hpre] at hmore
      rw [List.map_cons, listed, Padded.chars]
      simp only [List.append_assoc]
      exact Yields.closedBy_refused (r.finish_yields draft _) hmore
  | cons f fields ih =>
    obtain ⟨hf, hfields⟩ := List.forall_mem_cons.mp hfields
    rw [Record.readList, Record.elementsInto, bind_assoc]
    cases items with
    | nil =>
      have hend : hasElement first (pre ++ (gap ++ ']' :: rest)) = .ok false (']' :: rest) :=
        (hasElement_append hpre first _).trans (hasElement_end hgap first rest)
      rw [List.map_nil, listed, List.nil_append, closedBy_ok hend, Record.takeList]
      simp only [Bool.false_eq_true, if_false]
      split
      · have hfail : Yields none [] ((failLater (.invalidLength index r.expectation) >>= r.finish)
            (']' :: rest)) := ((fails_later _).yields [] _).bind_none r.finish
        exact hfail.closedBy_none closeList
      · exact ih hfields hv (index + 1) first draft blank_nil blank_nil
    | cons p items =>
      obtain ⟨hp, hv⟩ := List.forall_mem_cons.mp hv
      have hlater := ended_append p.after.2
        (listed_ended (items.map Padded.chars) hgap (rfl : endsValue ']' = true) rest)
      have hread := hf p.text hp draft depth hdepth [] blank_nil _ hlater
      have hhas := (hasElement_append hpre first _).trans (hasElement_item hp first
        (p.after ++ (listed false (items.map Padded.chars) ++ (gap ++ ']' :: rest))))
      rw [List.map_cons, listed, Padded.chars]
      simp only [List.append_assoc]
      rw [closedBy_ok hhas]
      simp only [if_true]
      rw [bind_assoc]
      exact hread.closedBy_bind fun d _ => ih hfields hv (index + 1) false d p.after.2 hgap

theorem Record.reads_value {r : Record σ α} {levels : Nat}
    (hfields : ∀ f ∈ r.fields, f.Steady levels) (hone : 1 ≤ levels) {v : List Char}
    (hv : IsValue v) : ∃ o, ReadsValue r.read (levels + 1) v o := by
  cases hv with
  | @list items gap hv =>
    refine ⟨r.takeList r.fields items r.blank, fun depth hdepth pre hpre => ?_⟩
    refine reads_settled hpre rfl ?_
    intro rest _
    simp only [enter, if_neg (show ¬ depth ≤ 1 by omega)]
    rw [List.cons_append, advance_bind, List.append_assoc, List.append_assoc]
    exact r.readList_listed hfields (by omega) hv 0 true r.blank blank_nil gap.2 rest
  | object hkeys hv =>
    exact ⟨_, fun depth hdepth pre hpre =>
      Record.read_object hfields (by omega) (by omega) hkeys hv _ hpre⟩
  | number hn =>
    obtain ⟨c, tail, rfl, hc⟩ := hn.head
    obtain ⟨_, _, _, _, hlist, hobject⟩ := ne_of_numeral hc
    refine ⟨none, fun _ _ _ hpre => reads_failed hpre (isSpace_numeral hc) ?_⟩
    simp only
    exact mismatch_fails _
  | _ => exact ⟨none, fun _ _ _ hpre => reads_failed hpre rfl (mismatch_fails _)⟩

/-! ## The order of members -/

/-- A member with the string that its key is. -/
structure Entry where
  key : String
  member : Member
  spelled : Spelled member.key.text key.toList
  isValue : IsValue member.value.text

def Entry.value (e : Entry) : List Char := e.member.value.text

/-- How often a key occurs. -/
def occurrences (entries : List Entry) (key : String) : Nat := entries.countP (·.key == key)

/-- The text of the first value of a key. -/
def lookup (entries : List Entry) (key : String) : Option (List Char) :=
  (entries.find? (·.key == key)).map Entry.value

/-- Reads the value of a field, if there is one. -/
def Field.fill (f : Field σ) (value : Option (List Char)) (draft : σ) : Option σ :=
  match value with
  | some v => f.own v draft
  | none => some draft

/-- Fills the given fields in their own order. -/
def fillFields (find : String → Option (List Char)) : List (Field σ) → σ → Option σ
  | [], draft => some draft
  | f :: fields, draft => (f.fill (find f.name) draft).bind (fillFields find fields)

/-- Two fields that do not get in each other's way. -/
structure Field.Apart (f g : Field σ) : Prop where
  name : f.name ≠ g.name
  left : ∀ v draft d, f.own v draft = some d → g.given d = g.given draft
  right : ∀ v draft d, g.own v draft = some d → f.given d = f.given draft
  comm : ∀ v w draft, (f.own v draft).bind (g.own w) = (g.own w draft).bind (f.own v)

/-- Every field is for itself, and a value that was read is there. -/
structure Record.Lawful (r : Record σ α) : Prop where
  apart : r.fields.Pairwise Field.Apart
  given : ∀ f ∈ r.fields, ∀ v draft d, f.own v draft = some d → f.given d = true
  blank : ∀ f ∈ r.fields, f.given r.blank = false

section Order

variable {fields : List (Field σ)} {find find' : String → Option (List Char)}

theorem fillFields_congr (h : ∀ f ∈ fields, find f.name = find' f.name) (draft : σ) :
    fillFields find fields draft = fillFields find' fields draft := by
  induction fields generalizing draft with
  | nil => rfl
  | cons f fields ih =>
    obtain ⟨hf, hfields⟩ := List.forall_mem_cons.mp h
    rw [fillFields, fillFields, hf]
    exact Option.bind_congr fun d _ => ih hfields d

theorem fillFields_none (h : ∀ f ∈ fields, find f.name = none) (draft : σ) :
    fillFields find fields draft = some draft := by
  induction fields with
  | nil => rfl
  | cons f fields ih =>
    obtain ⟨hf, hfields⟩ := List.forall_mem_cons.mp h
    rw [fillFields, hf]
    exact ih hfields

theorem Field.Apart.symm {f g : Field σ} (h : f.Apart g) : g.Apart f :=
  ⟨h.name.symm, h.right, h.left, fun v w draft => (h.comm w v draft).symm⟩

/-- A field may as well be filled before all others. -/
theorem fillFields_insert (happart : fields.Pairwise Field.Apart) {f : Field σ} (hf : f ∈ fields)
    {v : List Char} (hfind : find f.name = some v) (hfind' : find' f.name = none)
    (hother : ∀ key, key ≠ f.name → find key = find' key) (draft : σ) :
    fillFields find fields draft = (f.own v draft).bind (fillFields find' fields) := by
  induction fields generalizing draft with
  | nil => cases hf
  | cons g fields ih =>
    obtain ⟨hg, happart⟩ := List.pairwise_cons.mp happart
    rcases List.mem_cons.mp hf with rfl | hf
    · have hrest : ∀ g ∈ fields, find g.name = find' g.name := fun g hmem =>
        hother g.name (hg g hmem).name.symm
      rw [fillFields, hfind]
      refine Option.bind_congr fun d _ => ?_
      rw [fillFields, hfind', fillFields_congr hrest]
      rfl
    · have hcomm : (g.fill (find' g.name) draft).bind (f.own v) =
          (f.own v draft).bind (g.fill (find' g.name)) := by
        cases find' g.name with
        | none => exact (Option.bind_fun_some _).symm
        | some w => exact (hg f hf).comm w v draft
      calc fillFields find (g :: fields) draft
          = (g.fill (find' g.name) draft).bind (fillFields find fields) := by
            rw [fillFields, hother g.name (hg f hf).name]
        _ = (g.fill (find' g.name) draft).bind fun d =>
              (f.own v d).bind (fillFields find' fields) :=
            Option.bind_congr fun d _ => ih happart hf d
        _ = (f.own v draft).bind (fillFields find' (g :: fields)) := by
            rw [← Option.bind_assoc, hcomm, Option.bind_assoc]
            rfl

end Order

theorem occurrences_cons (e : Entry) (entries : List Entry) (key : String) :
    occurrences (e :: entries) key = occurrences entries key + if e.key = key then 1 else 0 := by
  simp [occurrences, List.countP_cons]

theorem lookup_cons (e : Entry) (entries : List Entry) (key : String) :
    lookup (e :: entries) key = if e.key = key then some e.value else lookup entries key := by
  by_cases h : e.key = key
  · simp [lookup, h]
  · have hbeq : (e.key == key) = false := beq_false_of_ne h
    rw [lookup, List.find?_cons, hbeq, if_neg h]
    rfl

theorem lookup_eq_none {entries : List Entry} {key : String} (h : occurrences entries key = 0) :
    lookup entries key = none := by
  induction entries with
  | nil => rfl
  | cons e entries ih =>
    rw [occurrences_cons] at h
    have hne : e.key ≠ key := fun heq => by simp [heq] at h
    rw [lookup_cons, if_neg hne]
    exact ih (by omega)

theorem Record.take_cons (r : Record σ α) (e : Entry) (members : List Member) (draft : σ) :
    r.take (e.member :: members) draft =
      match r.field? e.key with
      | some f => if f.given draft then none else (f.own e.value draft).bind (r.take members)
      | none => r.take members draft := by
  rw [Record.take, Member.name?, unquoted_spelled e.spelled]
  rfl

/-- Every key still has its place: it occurs once, or not at all if its field is there already. -/
def Record.Room (r : Record σ α) (entries : List Entry) (draft : σ) : Prop :=
  ∀ f ∈ r.fields, occurrences entries f.name ≤ if f.given draft then 0 else 1

section Take

variable {r : Record σ α}

instance : Std.Symm (Field.Apart : Field σ → Field σ → Prop) := ⟨fun _ _ => Field.Apart.symm⟩

theorem Record.Lawful.eq_of_name (h : r.Lawful) {f g : Field σ} (hf : f ∈ r.fields)
    (hg : g ∈ r.fields) (hname : f.name = g.name) : f = g := by
  by_contra hne
  exact (h.apart.forall hf hg hne).name hname

/-- Once a field is read, its key may not come again, and the others are as before. -/
theorem Record.Lawful.room_cons (h : r.Lawful) {e : Entry} {f : Field σ} (hf : f ∈ r.fields)
    (hkey : f.name = e.key) {draft d : σ} (hgiven : f.given draft = false)
    (hown : f.own e.value draft = some d) (entries : List Entry) :
    r.Room (e :: entries) draft ↔ r.Room entries d := by
  refine forall₂_congr fun g hg => ?_
  rw [occurrences_cons]
  by_cases hname : f.name = g.name
  · obtain rfl := h.eq_of_name hf hg hname
    rw [h.given f hf e.value draft d hown, hgiven, if_pos hkey.symm]
    simp
  · have hne : f ≠ g := fun heq => hname (by rw [heq])
    rw [(h.apart.forall hf hg hne).left e.value draft d hown,
      if_neg fun heq => hname (hkey.trans heq), Nat.add_zero]

theorem Record.Room.occurrences_eq_zero {f : Field σ} {entries : List Entry} {draft : σ}
    (h : r.Room entries draft) (hf : f ∈ r.fields) (hgiven : f.given draft = true) :
    occurrences entries f.name = 0 := by
  have hle := h f hf
  rw [if_pos hgiven] at hle
  exact Nat.le_zero.mp hle

instance (entries : List Entry) (draft : σ) : Decidable (r.Room entries draft) :=
  inferInstanceAs (Decidable (∀ f ∈ r.fields, _ ≤ _))

/-- Whatever the order of the members, each field is filled with the value of its key, and a key
that comes again is refused. The induction is on the members: the first of them is read before the
others, so its field is filled before all others. -/
theorem Record.take_eq_fill (h : r.Lawful) (entries : List Entry) (draft : σ) :
    r.take (entries.map Entry.member) draft =
      if r.Room entries draft then fillFields (lookup entries) r.fields draft else none := by
  induction entries generalizing draft with
  | nil =>
    have hroom : r.Room [] draft := fun f _ => Nat.zero_le _
    rw [if_pos hroom, fillFields_none fun f _ => rfl]
    rfl
  | cons e entries ih =>
    rw [List.map_cons, Record.take_cons]
    cases hfield : r.field? e.key with
    | none =>
      have hne {g : Field σ} (hg : g ∈ r.fields) : e.key ≠ g.name := by
        have hbeq := List.find?_eq_none.mp hfield g hg
        simpa using Ne.symm (by simpa using hbeq)
      have hroom : r.Room (e :: entries) draft ↔ r.Room entries draft :=
        forall₂_congr fun g hg => by rw [occurrences_cons, if_neg (hne hg), Nat.add_zero]
      have hlookup : ∀ g ∈ r.fields, lookup (e :: entries) g.name = lookup entries g.name :=
        fun g hg => by rw [lookup_cons, if_neg (hne hg)]
      simp only [hroom, fillFields_congr hlookup]
      exact ih draft
    | some f =>
      have hf : f ∈ r.fields := List.mem_of_find?_eq_some hfield
      have hkey : f.name = e.key := by simpa using List.find?_some hfield
      dsimp only
      cases hgiven : f.given draft with
      | true =>
        have hroom : ¬ r.Room (e :: entries) draft := fun hroom => by
          have hzero := hroom.occurrences_eq_zero hf hgiven
          rw [occurrences_cons, if_pos hkey.symm] at hzero
          omega
        rw [if_pos rfl, if_neg hroom]
      | false =>
        have hinsert (hroom : r.Room (e :: entries) draft) :
            fillFields (lookup (e :: entries)) r.fields draft =
              (f.own e.value draft).bind (fillFields (lookup entries) r.fields) := by
          have hzero : occurrences entries f.name = 0 := by
            have hle := hroom f hf
            rw [occurrences_cons, if_pos hkey.symm, hgiven] at hle
            simpa using hle
          refine fillFields_insert h.apart hf ?_ (lookup_eq_none hzero) ?_ draft
          · rw [lookup_cons, if_pos hkey.symm]
          · intro key hne
            rw [lookup_cons, if_neg fun heq => hne (hkey.trans heq).symm]
        rw [if_neg Bool.false_ne_true]
        cases hown : f.own e.value draft with
        | none =>
          split
          case isTrue hroom =>
            rw [hinsert hroom, hown]
            rfl
          case isFalse => rfl
        | some d =>
          have hroom := h.room_cons hf hkey hgiven hown entries
          rw [Option.bind_some, ih d]
          split
          case isTrue hd =>
            rw [if_pos (hroom.mpr hd), hinsert (hroom.mpr hd), hown]
            rfl
          case isFalse hd => rw [if_neg fun hall => hd (hroom.mp hall)]

end Take

/-! ## Objects in a text -/

/-- An object as it stands in a text. -/
structure ObjectText where
  entries : List Entry
  gap : Blanks

namespace ObjectText

def chars (o : ObjectText) : List Char := objectChars (o.entries.map Entry.member) o.gap

/-- None of the given keys occurs more than once. -/
def Once (o : ObjectText) (keys : List String) : Prop :=
  ∀ key ∈ keys, occurrences o.entries key ≤ 1

instance (o : ObjectText) (keys : List String) : Decidable (o.Once keys) :=
  inferInstanceAs (Decidable (∀ key ∈ keys, _ ≤ _))

/-- What the value of a key is read as on its own, if the key occurs. The value may be refused. -/
def read [Codec β] (o : ObjectText) (key : String) : Option (Option β) :=
  (lookup o.entries key).mapM own

variable (o : ObjectText)

theorem quoted : ∀ m ∈ o.entries.map Entry.member, IsQuoted m.key.text := by
  intro m hm
  obtain ⟨e, _, rfl⟩ := List.mem_map.mp hm
  exact e.spelled.isQuoted

theorem values : ∀ m ∈ o.entries.map Entry.member, IsValue m.value.text := by
  intro m hm
  obtain ⟨e, _, rfl⟩ := List.mem_map.mp hm
  exact e.isValue

theorem isValue : IsValue o.chars := .object o.quoted o.values

end ObjectText

theorem lookup_isValue {entries : List Entry} {key : String} {v : List Char}
    (h : lookup entries key = some v) : IsValue v := by
  obtain ⟨e, _, rfl⟩ := Option.map_eq_some_iff.mp h
  exact e.isValue

section Records

variable [Codec α] {r : Record σ α} {levels : Nat}

theorem Record.steady (hcodec : (Codec.read : Nat → Reader α) = r.read)
    (hfields : ∀ f ∈ r.fields, f.Steady levels) (hone : 1 ≤ levels)
    (hlevels : levels < depthLimit) : Steady α (levels + 1) :=
  steady_of_reads hlevels fun _ hv => hcodec ▸ Record.reads_value hfields hone hv

/-- A record from an object: each field is filled with the value of its key, whatever the order and
whatever else there is. -/
theorem Record.own_object (hcodec : (Codec.read : Nat → Reader α) = r.read) (hlaw : r.Lawful)
    (hfields : ∀ f ∈ r.fields, f.Steady levels) (hone : 1 ≤ levels)
    (hlevels : levels < depthLimit) (o : ObjectText) :
    own o.chars = if o.Once (r.fields.map Field.name) then
      (fillFields (lookup o.entries) r.fields r.blank).bind fun draft => (r.complete draft).toOption
      else none := by
  have hreads : ReadsValue (Codec.read : Nat → Reader α) (levels + 1) o.chars
      ((r.take (o.entries.map Entry.member) r.blank).bind fun draft =>
        (r.complete draft).toOption) := by
    intro depth hdepth pre hpre
    rw [hcodec]
    exact Record.read_object hfields (by omega) (by omega) o.quoted o.values o.gap hpre
  have hroom : r.Room o.entries r.blank ↔ o.Once (r.fields.map Field.name) := by
    rw [ObjectText.Once, List.forall_mem_map]
    exact forall₂_congr fun f hf => by rw [hlaw.blank f hf, if_neg Bool.false_ne_true]
  rw [hreads.own_eq hlevels, Record.take_eq_fill hlaw]
  simp only [hroom]
  split <;> rfl

end Records

section Of

variable [Codec β] {name : String} {required : Bool} {get : σ → Option β} {set : σ → β → σ}

theorem Field.of_given (hget : ∀ draft b, get (set draft b) = some b) :
    ∀ v draft d, (Field.of name required get set).own v draft = some d →
      (Field.of name required get set).given d = true := by
  intro v draft d hown
  rw [Field.of_own] at hown
  obtain ⟨b, _, rfl⟩ := Option.map_eq_some_iff.mp hown
  show (get (set draft b)).isSome = true
  rw [hget]
  rfl

theorem Field.of_apart {γ : Type} [Codec γ] {name' : String} {required' : Bool}
    {get' : σ → Option γ} {set' : σ → γ → σ} (hname : name ≠ name')
    (hget' : ∀ draft b, get' (set draft b) = get' draft)
    (hget : ∀ draft c, get (set' draft c) = get draft)
    (hset : ∀ draft b c, set' (set draft b) c = set (set' draft c) b) :
    (Field.of name required get set).Apart (Field.of name' required' get' set') := by
  constructor
  case name => exact hname
  case left =>
    intro v draft d hown
    rw [Field.of_own] at hown
    obtain ⟨b, _, rfl⟩ := Option.map_eq_some_iff.mp hown
    exact congrArg Option.isSome (hget' draft b)
  case right =>
    intro v draft d hown
    rw [Field.of_own] at hown
    obtain ⟨c, _, rfl⟩ := Option.map_eq_some_iff.mp hown
    exact congrArg Option.isSome (hget draft c)
  case comm =>
    intro v w draft
    cases hv : (Codec.read depthLimit : Reader β).alone v <;>
      cases hw : (Codec.read depthLimit : Reader γ).alone w <;>
        simp [Field.of_own, hv, hw, hset]

/-- The next field of a draft: `place` puts its value into the draft, if there is one. -/
theorem fillFields_of {levels : Nat} (hsteady : Steady β levels) (o : ObjectText)
    {fields : List (Field σ)} {draft : σ} (place : Option β → σ)
    (hnone : place none = draft) (hsome : ∀ b, place (some b) = set draft b)
    {q : Option β → Option σ} (hrest : ∀ b, fillFields (lookup o.entries) fields (place b) = q b) :
    fillFields (lookup o.entries) (Field.of name required get set :: fields) draft =
      (o.read name).bind q := by
  rw [fillFields, ObjectText.read]
  show (Field.fill _ (lookup o.entries name) draft).bind _ = _
  cases hlookup : lookup o.entries name with
  | none =>
    rw [← hnone]
    exact hrest none
  | some v =>
    rw [Field.fill, Field.of_own, hsteady.alone_eq (lookup_isValue hlookup), Option.mapM_some]
    cases (own v : Option β) with
    | none => rfl
    | some b =>
      show fillFields (lookup o.entries) fields (set draft b) = q (some b)
      rw [← hsome]
      exact hrest (some b)

end Of

end Widgetry.Json
