import Widgetry.Proofs.Topmost

/-!
# Hover and focus go their own ways

A call that asks for hover and one that asks for focus work on the same stack of rectangles, the
same pointer and the same identifiers. Still, what happens to one mark depends on the calls for that
mark alone. `Stage.Agrees` says that two stages cannot be told apart by the calls for a mark: a call
for it keeps them so and answers the same in both (`MarkCall.apply_alike`), and a call for the other
mark leaves a stage as it was in that respect (`MarkCall.apply_agrees`). Nothing is assumed of the
scene; its flags and its pointer need not agree.
-/

namespace Widgetry

theorem Stage.Moves.handovers_ne {m n : Mark} {s : Stage} {α : Type} {o : Outcome Stage α}
    (h : Stage.Moves m s o) (hn : n ≠ m) : handovers n o.signals = [] := by
  rw [handovers, List.map_eq_nil_iff, List.filter_eq_nil_iff]
  intro e he
  obtain ⟨on, hkind⟩ := h.kind e he
  simp [hkind, Mark.event_ne hn]

section MarkRect

variable {m : Mark} {rects rects' : List Rectangle}

theorem Rectangle.mark_handovers (r : Rectangle) (m : Mark) (on : Bool) (c : Option Point) :
    handovers m (r.mark m on c).2 = if r.has m = on then [] else [(m.event on, r.id)] := by
  by_cases h : r.has m = on
  · rw [mark, if_pos h, if_pos h]
    rfl
  · rw [mark, if_neg h, if_neg h]
    cases on <;> simp [handovers, events, emit]

/-- Where a mark goes and who is told depends on identifiers and on the flags of that mark. -/
theorem markRect_congr (h : rects.map (Marked.badge m) = rects'.map (Marked.badge m)) (on : Bool)
    (c c' : Option Point) (id : RectId) :
    (markRect m on c id rects).1.map (Marked.badge m) =
        (markRect m on c' id rects').1.map (Marked.badge m) ∧
      handovers m (markRect m on c id rects).2 = handovers m (markRect m on c' id rects').2 := by
  induction rects generalizing rects' with
  | nil =>
    rw [List.map_nil, eq_comm, List.map_eq_nil_iff] at h
    rw [h]
    exact ⟨rfl, rfl⟩
  | cons x rest ih =>
    cases rects' with
    | nil => simp at h
    | cons y rest' =>
      rw [List.map_cons, List.map_cons, List.cons.injEq] at h
      obtain ⟨hhead, hrest⟩ := h
      obtain ⟨hid, hflag⟩ := Prod.mk.inj hhead
      by_cases hx : x.id = id
      · subst hx
        rw [markRect_cons_self, hid, markRect_cons_self, Rectangle.mark_handovers,
          Rectangle.mark_handovers, hid, hflag]
        simp [Marked.badge, hid, hrest]
      · have hy : y.id ≠ id := hid ▸ hx
        obtain ⟨hbadges, htold⟩ := ih hrest
        rw [markRect_cons_ne hx, markRect_cons_ne hy]
        simp [hhead, hbadges, htold]

theorem markHolder_congr (h : rects.map (Marked.badge m) = rects'.map (Marked.badge m)) (on : Bool)
    (c c' : Option Point) (holder : Option RectId) :
    (markHolder m on c holder rects).1.map (Marked.badge m) =
        (markHolder m on c' holder rects').1.map (Marked.badge m) ∧
      handovers m (markHolder m on c holder rects).2 =
        handovers m (markHolder m on c' holder rects').2 := by
  cases holder with
  | none => exact ⟨h, rfl⟩
  | some id => exact markRect_congr h on c c' id

end MarkRect

/-- A rectangle is known by what the pointer never changes and by its two flags. -/
theorem rects_ext {rects rects' : List Rectangle}
    (hbare : rects.map Rectangle.bare = rects'.map Rectangle.bare)
    (hflags : ∀ m, rects.map (Marked.badge m) = rects'.map (Marked.badge m)) : rects = rects' := by
  induction rects generalizing rects' with
  | nil =>
    rw [List.map_nil, eq_comm, List.map_eq_nil_iff] at hbare
    exact hbare.symm
  | cons x rest ih =>
    cases rects' with
    | nil => simp at hbare
    | cons y rest' =>
      simp only [List.map_cons, List.cons.injEq] at hbare hflags
      have hhover : x.hovered = y.hovered := (Prod.mk.inj (hflags .hover).1).2
      have hfocus : x.focused = y.focused := (Prod.mk.inj (hflags .focus).1).2
      have hxy : x = y := by
        cases x
        cases y
        simp_all [Rectangle.bare, Rectangle.copy]
      rw [hxy, ih hbare.2 fun m => (hflags m).2]

namespace Stage

variable {m n : Mark} {s t u : Stage} {target : Option RectId}

/-- The calls for a mark cannot tell two stages apart. Where the cursor is matters for hover
only. -/
structure Agrees (m : Mark) (s t : Stage) : Prop where
  bare : s.rects.map Rectangle.bare = t.rects.map Rectangle.bare
  badges : s.rects.map (Marked.badge m) = t.rects.map (Marked.badge m)
  holder : s.pointer.holder m = t.pointer.holder m
  cursor : m = .hover → s.pointer.cursor = t.pointer.cursor

namespace Agrees

theorem refl (m : Mark) (s : Stage) : Agrees m s s := ⟨rfl, rfl, rfl, fun _ => rfl⟩

theorem trans (h : Agrees m s t) (k : Agrees m t u) : Agrees m s u where
  bare := h.bare.trans k.bare
  badges := h.badges.trans k.badges
  holder := h.holder.trans k.holder
  cursor hm := (h.cursor hm).trans (k.cursor hm)

theorem symm (h : Agrees m s t) : Agrees m t s where
  bare := h.bare.symm
  badges := h.badges.symm
  holder := h.holder.symm
  cursor hm := (h.cursor hm).symm

theorem hasRect (h : Agrees m s t) (id : RectId) : hasRect s.rects id = hasRect t.rects id :=
  hasRect_of_bare h.bare id

/-- Stages that agree for both marks and on what was pressed are the same. -/
theorem ext (h : ∀ m, Agrees m s t) (hp : s.pointer.pressedOn = t.pointer.pressedOn) : s = t := by
  have hrects : s.rects = t.rects := rects_ext (h .hover).bare fun m => (h m).badges
  have hcursor : s.pointer.cursor = t.pointer.cursor := (h .hover).cursor rfl
  have hhover : s.pointer.hovered = t.pointer.hovered := (h .hover).holder
  have hfocus : s.pointer.focused = t.pointer.focused := (h .focus).holder
  obtain ⟨rects, cursor, hovered, focused, pressedOn⟩ := s
  obtain ⟨rects', cursor', hovered', focused', pressedOn'⟩ := t
  simp_all

end Agrees

/-- Moving a mark is out of sight of the other one. -/
theorem transfer_agrees (hn : n ≠ m) (s : Stage) (target : Option RectId) :
    Agrees n (s.transfer m target).state s where
  bare := (s.transfer_moves m target).bare
  badges := transfer_badges hn s target
  holder := (s.transfer_moves m target).holder_ne hn
  cursor _ := (s.transfer_moves m target).cursor

/-- Moving a mark does the same in stages that the calls for it cannot tell apart. -/
theorem transfer_alike (h : Agrees m s t) (target : Option RectId) :
    Agrees m (s.transfer m target).state (t.transfer m target).state ∧
      (s.transfer m target).answer = (t.transfer m target).answer ∧
      handovers m (s.transfer m target).signals = handovers m (t.transfer m target).signals := by
  by_cases hs : target = s.pointer.holder m
  · have ht : target = t.pointer.holder m := hs.trans h.holder
    rw [transfer, if_pos hs, transfer, if_pos ht]
    exact ⟨h, rfl, rfl⟩
  · have ht : target ≠ t.pointer.holder m := h.holder ▸ hs
    have hbare : (s.transfer m target).state.rects.map Rectangle.bare =
        (t.transfer m target).state.rects.map Rectangle.bare := by
      rw [(s.transfer_moves m target).bare, (t.transfer_moves m target).bare, h.bare]
    have hcursor (hm : m = .hover) : (s.transfer m target).state.pointer.cursor =
        (t.transfer m target).state.pointer.cursor := by
      rw [(s.transfer_moves m target).cursor, (t.transfer_moves m target).cursor, h.cursor hm]
    have hholder : (s.transfer m target).state.pointer.holder m =
        (t.transfer m target).state.pointer.holder m := by simp
    -- The old holder loses the mark in both, then the new one gains it in both.
    obtain ⟨hlost, hlostTold⟩ := markHolder_congr h.badges false s.pointer.cursor t.pointer.cursor
      (s.pointer.holder m)
    obtain ⟨hgained, hgainedTold⟩ := markHolder_congr hlost true s.pointer.cursor t.pointer.cursor
      target
    rw [transfer_of_ne hs] at hbare hcursor hholder ⊢
    rw [transfer_of_ne ht, ← h.holder] at hbare hcursor hholder ⊢
    refine ⟨⟨hbare, hgained, hholder, hcursor⟩, rfl, ?_⟩
    simp only [handovers_append, hlostTold, hgainedTold]

/-! ## Every call is a transfer -/

theorem mouseIn_eq_transfer (s : Stage) (id : RectId) :
    s.mouseIn id =
      s.transfer .hover (if hasRect s.rects id then some id else s.pointer.hovered) := by
  unfold mouseIn
  split
  · rfl
  · exact (s.transfer_self .hover).symm

theorem mouseOut_eq_transfer (s : Stage) (id : RectId) :
    s.mouseOut id =
      s.transfer .hover (if s.pointer.hovered = some id then none else s.pointer.hovered) := by
  unfold mouseOut
  split
  · rfl
  · exact (s.transfer_self .hover).symm

theorem blur_eq_transfer (s : Stage) (id : RectId) :
    s.blur id =
      s.transfer .focus (if s.pointer.focused = some id then none else s.pointer.focused) := by
  unfold blur
  split
  · exact s.setFocus_none
  · exact (s.transfer_self .focus).symm

/-- Focus that is refused stays; the refusal is signalled, but to no rectangle. -/
theorem setFocus_eq_transfer (s : Stage) (id : RectId) :
    let o := s.transfer .focus (if hasRect s.rects id then some id else s.pointer.focused)
    (s.setFocus (some id)).state = o.state ∧ (s.setFocus (some id)).answer = o.answer ∧
      events (s.setFocus (some id)).signals = events o.signals := by
  cases hin : hasRect s.rects id with
  | true =>
    rw [if_pos rfl, setFocus_known hin]
    exact ⟨rfl, rfl, rfl⟩
  | false =>
    have hself : s.transfer .focus s.pointer.focused = s.refuse := s.transfer_self .focus
    rw [if_neg (by decide), hself]
    by_cases hf : s.pointer.focused = some id
    · rw [setFocus, if_pos hf.symm]
      exact ⟨rfl, rfl, rfl⟩
    · rw [setFocus_unknown hin hf]
      exact ⟨rfl, rfl, rfl⟩

end Stage

/-- A call that asks for hover or for focus and nothing else. -/
inductive MarkCall where
  | cursorMoved (p : Point)
  | cursorLeft
  | refresh
  | mouseIn (id : RectId)
  | mouseOut (id : RectId)
  | setFocus (target : Option RectId)
  | focus (id : RectId)
  | blur (id : RectId)

namespace MarkCall

variable {m : Mark} {s t : Scene}

/-- The mark that a call asks for. -/
def mark : MarkCall → Mark
  | .cursorMoved _ | .cursorLeft | .refresh | .mouseIn _ | .mouseOut _ => .hover
  | .setFocus _ | .focus _ | .blur _ => .focus

def apply (s : Scene) : MarkCall → Outcome Scene Bool
  | .cursorMoved p => s.cursorMoved p
  | .cursorLeft => s.cursorLeft
  | .refresh => s.refresh
  | .mouseIn id => s.mouseIn id
  | .mouseOut id => s.mouseOut id
  | .setFocus target => s.setFocus target
  | .focus id => s.focus id
  | .blur id => s.blur id

/-- Where the cursor is once a call has reported it. -/
def cursor (c : MarkCall) (before : Option Point) : Option Point :=
  match c with
  | .cursorMoved p => some p
  | .cursorLeft => none
  | _ => before

/-- The stage with the cursor where a call reports it. -/
def report (c : MarkCall) (s : Stage) : Stage :=
  { s with pointer := { s.pointer with cursor := c.cursor s.pointer.cursor } }

/-- Who holds the mark after a call. A rectangle that does not exist cannot gain it, and one that
does not hold it cannot lose it. -/
def target (c : MarkCall) (s : Stage) : Option RectId :=
  let held := s.pointer.holder c.mark
  match c with
  | .cursorMoved _ | .cursorLeft | .refresh => s.underCursor
  | .setFocus none => none
  | .mouseIn id | .setFocus (some id) | .focus id => if hasRect s.rects id then some id else held
  | .mouseOut id | .blur id => if held = some id then none else held

/-- All that a call can do: it reports the cursor and moves its mark. -/
theorem apply_eq_transfer (c : MarkCall) (s : Scene) :
    let o := (c.report s.stage).transfer c.mark (c.target (c.report s.stage))
    (c.apply s).state = { s with stage := o.state } ∧ (c.apply s).answer = o.answer ∧
      events (c.apply s).signals = events o.signals := by
  -- The scene only passes on what its stage does.
  have hlift {o o' : Outcome Stage Bool}
      (h : o.state = o'.state ∧ o.answer = o'.answer ∧ events o.signals = events o'.signals) :
      (s.lift o).state = { s with stage := o'.state } ∧ (s.lift o).answer = o'.answer ∧
        events (s.lift o).signals = events o'.signals := by
    rw [← h.1]
    exact ⟨rfl, h.2⟩
  cases c with
  | cursorMoved p => exact ⟨rfl, rfl, rfl⟩
  | cursorLeft => exact ⟨rfl, rfl, rfl⟩
  | refresh => exact ⟨rfl, rfl, rfl⟩
  | mouseIn id =>
    rw [apply, Scene.mouseIn, Stage.mouseIn_eq_transfer]
    exact ⟨rfl, rfl, rfl⟩
  | mouseOut id =>
    rw [apply, Scene.mouseOut, Stage.mouseOut_eq_transfer]
    exact ⟨rfl, rfl, rfl⟩
  | setFocus target =>
    cases target with
    | none =>
      rw [apply, Scene.setFocus, Stage.setFocus_none]
      exact ⟨rfl, rfl, rfl⟩
    | some id => exact hlift (s.stage.setFocus_eq_transfer id)
  | focus id => exact hlift (s.stage.setFocus_eq_transfer id)
  | blur id =>
    rw [apply, Scene.blur, Stage.blur_eq_transfer]
    exact ⟨rfl, rfl, rfl⟩

@[simp] theorem report_holder (c : MarkCall) (s : Stage) (m : Mark) :
    (c.report s).pointer.holder m = s.pointer.holder m := by
  cases m <;> rfl

theorem report_agrees (c : MarkCall) {s t : Stage} (h : s.Agrees c.mark t) :
    (c.report s).Agrees c.mark (c.report t) := by
  refine ⟨h.bare, h.badges, by simpa using h.holder, ?_⟩
  intro hm
  show c.cursor s.pointer.cursor = c.cursor t.pointer.cursor
  rw [h.cursor hm]

/-- Focus does not see the cursor, and calls for focus do not move it. -/
theorem report_agrees_self (c : MarkCall) (hm : m ≠ c.mark) (s : Stage) :
    (c.report s).Agrees m s := by
  refine ⟨rfl, rfl, c.report_holder s m, ?_⟩
  intro hhover
  subst hhover
  cases c <;> first | rfl | exact absurd rfl hm

/-- The target is found by what the calls for the mark can see. -/
theorem target_congr (c : MarkCall) {s t : Stage} (h : s.Agrees c.mark t) :
    c.target s = c.target t := by
  cases c with
  | cursorMoved p => exact Stage.underCursor_congr (h.cursor rfl) h.bare
  | cursorLeft => exact Stage.underCursor_congr (h.cursor rfl) h.bare
  | refresh => exact Stage.underCursor_congr (h.cursor rfl) h.bare
  | mouseIn id => simp only [target, h.hasRect id, h.holder]
  | mouseOut id => simp only [target, h.holder]
  | setFocus target =>
    cases target with
    | none => rfl
    | some id => simp only [MarkCall.target, h.hasRect id, h.holder]
  | focus id => simp only [target, h.hasRect id, h.holder]
  | blur id => simp only [target, h.holder]

/-- A call does the same in scenes that the calls for its mark cannot tell apart. -/
theorem apply_alike (c : MarkCall) (h : s.stage.Agrees c.mark t.stage) :
    (c.apply s).state.stage.Agrees c.mark (c.apply t).state.stage ∧
      (c.apply s).answer = (c.apply t).answer ∧
      handovers c.mark (c.apply s).signals = handovers c.mark (c.apply t).signals := by
  obtain ⟨hs, hsAnswer, hsEvents⟩ := c.apply_eq_transfer s
  obtain ⟨ht, htAnswer, htEvents⟩ := c.apply_eq_transfer t
  have hreport := c.report_agrees h
  have halike := Stage.transfer_alike hreport (c.target (c.report s.stage))
  rw [hs, ht, hsAnswer, htAnswer, handovers, hsEvents, handovers, htEvents,
    ← c.target_congr hreport]
  exact halike

/-- A call is out of sight of the calls for the other mark. -/
theorem apply_agrees (c : MarkCall) (hm : m ≠ c.mark) (s : Scene) :
    (c.apply s).state.stage.Agrees m s.stage ∧ handovers m (c.apply s).signals = [] := by
  obtain ⟨hs, -, hsEvents⟩ := c.apply_eq_transfer s
  have hmoves := (c.report s.stage).transfer_moves c.mark (c.target (c.report s.stage))
  have htold := hmoves.handovers_ne hm
  rw [hs, handovers, hsEvents]
  exact ⟨(Stage.transfer_agrees hm _ _).trans (c.report_agrees_self hm s.stage), htold⟩

/-- No call changes the viewport or what was pressed. -/
theorem apply_keeps (c : MarkCall) (s : Scene) :
    (c.apply s).state.viewport = s.viewport ∧
      (c.apply s).state.pointer.pressedOn = s.pointer.pressedOn := by
  obtain ⟨hs, -, -⟩ := c.apply_eq_transfer s
  have hmoves := (c.report s.stage).transfer_moves c.mark (c.target (c.report s.stage))
  rw [hs]
  exact ⟨rfl, hmoves.pressedOn⟩

end MarkCall

namespace Scene

variable {s t : Scene} {m : Mark}

theorem eq_of_parts (hview : s.viewport = t.viewport) (hstage : s.stage = t.stage) : s = t := by
  cases s
  cases t
  exact congr (congrArg Scene.mk hview) hstage

/-- Calls one after the other, each with its answer. -/
def obey (s : Scene) : List MarkCall → Outcome Scene (List (MarkCall × Bool))
  | [] => ⟨s, [], []⟩
  | c :: rest =>
    let first := c.apply s
    let later := first.state.obey rest
    ⟨later.state, first.signals ++ later.signals, (c, first.answer) :: later.answer⟩

theorem obey_keeps (s : Scene) (calls : List MarkCall) :
    (s.obey calls).state.viewport = s.viewport ∧
      (s.obey calls).state.pointer.pressedOn = s.pointer.pressedOn := by
  induction calls generalizing s with
  | nil => exact ⟨rfl, rfl⟩
  | cons c rest ih =>
    obtain ⟨hview, hpressed⟩ := c.apply_keeps s
    obtain ⟨hview', hpressed'⟩ := ih (c.apply s).state
    exact ⟨hview'.trans hview, hpressed'.trans hpressed⟩

/-- What becomes of a mark, and what its calls answer, is as if the other calls had not been. -/
theorem obey_alone (h : s.stage.Agrees m t.stage) (calls : List MarkCall) :
    let alone := t.obey (calls.filter (·.mark = m))
    (s.obey calls).state.stage.Agrees m alone.state.stage ∧
      (s.obey calls).answer.filter (·.1.mark = m) = alone.answer ∧
      handovers m (s.obey calls).signals = handovers m alone.signals := by
  induction calls generalizing s t with
  | nil => exact ⟨h, rfl, rfl⟩
  | cons c rest ih =>
    by_cases hc : c.mark = m
    · -- The call is made in both runs.
      subst hc
      obtain ⟨hagrees, hanswer, htold⟩ := c.apply_alike h
      obtain ⟨hagrees', hanswer', htold'⟩ := ih hagrees
      rw [List.filter_cons_of_pos (by simp)]
      refine ⟨hagrees', ?_, ?_⟩
      · simp [obey, hanswer, hanswer']
      · simp only [obey, handovers_append, htold, htold']
    · -- The call is for the other mark and made in one run only.
      obtain ⟨hagrees, htold⟩ := c.apply_agrees (Ne.symm hc) s
      obtain ⟨hagrees', hanswer', htold'⟩ := ih (hagrees.trans h)
      rw [List.filter_cons_of_neg (by simpa using hc)]
      refine ⟨hagrees', ?_, ?_⟩
      · simp [obey, hc, hanswer']
      · simp only [obey, handovers_append, htold, htold', List.nil_append]

/-- The calls are those of two sequences, one for each mark, in any order that keeps the order of
each. -/
structure Interleaves (hovers focuses calls : List MarkCall) : Prop where
  hover : calls.filter (·.mark = .hover) = hovers
  focus : calls.filter (·.mark = .focus) = focuses

theorem Interleaves.own {hovers focuses calls calls' : List MarkCall}
    (h : Interleaves hovers focuses calls) (h' : Interleaves hovers focuses calls') (m : Mark) :
    calls.filter (·.mark = m) = calls'.filter (·.mark = m) := by
  cases m with
  | hover => rw [h.hover, h'.hover]
  | focus => rw [h.focus, h'.focus]

/-- Hover and focus do not depend on each other. However a sequence of calls for hover and a
sequence of calls for focus are interleaved, the scene ends up the same, each call is answered the
same, and the rectangles are told the same about each mark in the same order. -/
theorem hover_and_focus_are_independent (s : Scene) {hovers focuses calls calls' : List MarkCall}
    (h : Interleaves hovers focuses calls) (h' : Interleaves hovers focuses calls') :
    (s.obey calls).state = (s.obey calls').state ∧
    ∀ m : Mark,
      (s.obey calls).answer.filter (·.1.mark = m) = (s.obey calls').answer.filter (·.1.mark = m) ∧
      handovers m (s.obey calls).signals = handovers m (s.obey calls').signals := by
  have halone (m : Mark) := obey_alone (Stage.Agrees.refl m s.stage) calls
  have halone' (m : Mark) := obey_alone (Stage.Agrees.refl m s.stage) calls'
  simp only [← h.own h'] at halone'
  constructor
  · obtain ⟨hview, hpressed⟩ := s.obey_keeps calls
    obtain ⟨hview', hpressed'⟩ := s.obey_keeps calls'
    have hstage : (s.obey calls).state.stage = (s.obey calls').state.stage :=
      Stage.Agrees.ext (fun m => (halone m).1.trans (halone' m).1.symm)
        (hpressed.trans hpressed'.symm)
    exact eq_of_parts (hview.trans hview'.symm) hstage
  · intro m
    exact ⟨(halone m).2.1.trans (halone' m).2.1.symm, (halone m).2.2.trans (halone' m).2.2.symm⟩

/-- Two rectangles on top of each other. -/
def covered : Scene where
  stage := { rects := [.make ⟨1⟩ ⟨0, 0⟩ 20 20, .make ⟨2⟩ ⟨0, 0⟩ 20 20] }

/-- Hover comes to the upper rectangle, leaves it, is sent to the lower one and found again. -/
def wandering : List MarkCall :=
  [.cursorMoved ⟨5, 5⟩, .mouseOut ⟨2⟩, .mouseIn ⟨1⟩, .refresh]

/-- Focus comes to the upper rectangle, is refused to one that does not exist, and goes. -/
def visiting : List MarkCall := [.focus ⟨2⟩, .setFocus (some ⟨9⟩), .blur ⟨2⟩]

def woven : List MarkCall :=
  [.focus ⟨2⟩, .cursorMoved ⟨5, 5⟩, .mouseOut ⟨2⟩, .setFocus (some ⟨9⟩), .blur ⟨2⟩, .mouseIn ⟨1⟩,
    .refresh]

theorem hover_and_focus_are_independent_covered :
    Interleaves wandering visiting (wandering ++ visiting) ∧
    Interleaves wandering visiting woven ∧
    (covered.obey (wandering ++ visiting)).state = (covered.obey woven).state ∧
    handovers .hover (covered.obey woven).signals =
      [(.mouseIn, ⟨2⟩), (.mouseOut, ⟨2⟩), (.mouseIn, ⟨1⟩), (.mouseOut, ⟨1⟩), (.mouseIn, ⟨2⟩)] ∧
    handovers .focus (covered.obey (wandering ++ visiting)).signals =
      handovers .focus (covered.obey woven).signals ∧
    (covered.obey woven).answer.map (·.2) = [true, true, true, false, true, true, true] := by
  have happend : Interleaves wandering visiting (wandering ++ visiting) := ⟨rfl, rfl⟩
  have hwoven : Interleaves wandering visiting woven := ⟨rfl, rfl⟩
  obtain ⟨hstate, hsame⟩ := hover_and_focus_are_independent covered happend hwoven
  exact ⟨happend, hwoven, hstate, by decide +kernel, (hsame .focus).2, by decide +kernel⟩

end Scene

end Widgetry
