import Widgetry.Proofs.Handover

/-!
# Flags and pointer agree

A stage is coherent when each mark is where the pointer says it is. Every operation of a coherent
stage leaves it coherent, and its gain and loss events lead from the old holder of a mark to the
new one: `Stage.Follows`. Coherence is needed for the events too, because a flag that is already
as wanted emits nothing. An operation made of several steps follows by composition.
-/

namespace Widgetry

namespace Stage

variable {s t u : Stage} {m n : Mark} {target : Option RectId} {id : RectId}

/-- A target that is in the stack, or nobody. -/
def Knows (s : Stage) (target : Option RectId) : Prop :=
  ∀ id, target = some id → hasRect s.rects id = true

theorem knows_none (s : Stage) : s.Knows none := by
  intro id hid
  cases hid

theorem knows_some : s.Knows (some id) ↔ hasRect s.rects id = true := by
  constructor
  · intro h
    exact h id rfl
  · intro h x hx
    cases hx
    exact h

/-- Each mark is where the pointer says it is, and the button went down on a rectangle of the
stack. -/
structure Coherent (s : Stage) : Prop where
  marked : ∀ m, Marked m (s.pointer.holder m) s.rects
  pressed : s.Knows s.pointer.pressedOn

theorem Coherent.knows (h : s.Coherent) (m : Mark) : s.Knows (s.pointer.holder m) := by
  intro id hid
  have hm := h.marked m
  rw [hid] at hm
  exact hm.present

theorem Coherent.of_flags (h : s.Coherent) (hp : t.pointer = s.pointer)
    (hb : ∀ m, t.rects.map (Marked.badge m) = s.rects.map (Marked.badge m)) : t.Coherent := by
  constructor
  · intro m
    rw [hp]
    exact (h.marked m).of_badges (hb m)
  · intro id hid
    rw [hp] at hid
    obtain ⟨r, hr, hrid⟩ := hasRect_iff.mp (h.pressed id hid)
    have hmem : Marked.badge .hover r ∈ t.rects.map (Marked.badge .hover) := by
      rw [hb]
      exact List.mem_map_of_mem hr
    obtain ⟨x, hx, hxr⟩ := List.mem_map.mp hmem
    exact hasRect_iff.mpr ⟨x, hx, (Prod.mk.inj hxr).1.trans hrid⟩

/-- `s` becomes the coherent `t`, and the events on the way lead from the holders in `s` to the
holders in `t`. -/
structure Follows (s : Stage) (signals : List Signal) (t : Stage) : Prop where
  coherent : t.Coherent
  passes : ∀ m, Passes m (s.pointer.holder m) (handovers m signals) (t.pointer.holder m)

theorem Follows.trans {a b : List Signal} (h : Follows s a t) (k : Follows t b u) :
    Follows s (a ++ b) u := by
  refine ⟨k.coherent, ?_⟩
  intro m
  rw [handovers_append]
  exact (h.passes m).trans (k.passes m)

/-- A step that moves no mark. -/
theorem Coherent.follows {signals : List Signal} (h : t.Coherent)
    (hq : ∀ m, handovers m signals = []) (hp : ∀ m, t.pointer.holder m = s.pointer.holder m) :
    Follows s signals t := by
  refine ⟨h, ?_⟩
  intro m
  rw [hq, hp]
  exact Passes.stay _

/-- The pointer may change in what is no holder. -/
theorem Coherent.follows_pointer (h : s.Coherent) {p : Pointer}
    (hp : ∀ m, p.holder m = s.pointer.holder m) (hk : s.Knows p.pressedOn) :
    Follows s [] { s with pointer := p } := by
  refine Coherent.follows ⟨?_, hk⟩ (fun _ => rfl) hp
  intro m
  show Marked m (p.holder m) s.rects
  rw [hp]
  exact h.marked m

theorem Coherent.refuse (h : s.Coherent) : Follows s s.refuse.signals s.refuse.state :=
  h.follows (fun _ => rfl) fun _ => rfl

/-! ## Transfer -/

theorem transfer_badges (hn : n ≠ m) (s : Stage) (target : Option RectId) :
    (s.transfer m target).state.rects.map (Marked.badge n) = s.rects.map (Marked.badge n) := by
  by_cases h : target = s.pointer.holder m
  · subst h
    rw [transfer_self]
    rfl
  · rw [transfer_of_ne h]
    exact (markHolder_badges hn ..).trans (markHolder_badges hn ..)

theorem transfer_marked (hs : s.Coherent) (ht : s.Knows target) (n : Mark) :
    Marked n ((s.pointer.setHolder m target).holder n) (s.transfer m target).state.rects := by
  by_cases hn : n = m
  · subst hn
    rw [Pointer.holder_setHolder]
    by_cases h : target = s.pointer.holder n
    · subst h
      rw [transfer_self]
      exact hs.marked n
    · rw [transfer_of_ne h]
      exact (markHolder_exchange (hs.marked n) ht).1
  · rw [Pointer.holder_setHolder_ne _ _ hn]
    exact (hs.marked n).of_badges (transfer_badges hn s target)

/-- What a mark that moves tells the rectangles: the old holder first. -/
theorem transfer_events (hs : s.Coherent) (ht : s.Knows target) (h : target ≠ s.pointer.holder m) :
    events (s.transfer m target).signals =
      (s.pointer.holder m).toList.map (⟨m.event false, ·, s.pointer.cursor⟩) ++
        target.toList.map (⟨m.event true, ·, s.pointer.cursor⟩) := by
  rw [transfer_of_ne h, events_append, (markHolder_exchange (hs.marked m) ht).2]
  exact List.append_nil _

theorem transfer_coherent (hs : s.Coherent) (ht : s.Knows target) :
    (s.transfer m target).state.Coherent := by
  constructor
  · intro n
    rw [transfer_pointer]
    exact transfer_marked hs ht n
  · intro id hid
    rw [transfer_pointer, Pointer.setHolder_pressedOn] at hid
    rw [hasRect_of_bare (s.transfer_moves m target).bare]
    exact hs.pressed id hid

theorem transfer_follows (hs : s.Coherent) (ht : s.Knows target) :
    Follows s (s.transfer m target).signals (s.transfer m target).state := by
  refine ⟨transfer_coherent hs ht, ?_⟩
  intro n
  by_cases h : target = s.pointer.holder m
  · subst h
    rw [transfer_self]
    exact Passes.stay _
  · have hev := transfer_events hs ht h
    rw [transfer_pointer]
    by_cases hn : n = m
    · subst hn
      rw [Pointer.holder_setHolder, handovers_exchange hev]
      exact Passes.exchange n _ _
    · rw [Pointer.holder_setHolder_ne _ _ hn, handovers_exchange_ne hn hev]
      exact Passes.stay _

/-! ## Operations of a stage -/

theorem topmostAt_known {rects : List Rectangle} {p : Point} (h : topmostAt rects p = some id) :
    hasRect rects id = true := by
  rw [topmostAt, Option.map_eq_some_iff] at h
  obtain ⟨r, hr, hid⟩ := h
  exact hasRect_iff.mpr ⟨r, List.mem_reverse.mp (List.mem_of_find?_eq_some hr), hid⟩

theorem knows_underCursor (s : Stage) : s.Knows s.underCursor := by
  intro id hid
  rw [underCursor, Option.bind_eq_some_iff] at hid
  obtain ⟨p, _, hp⟩ := hid
  exact topmostAt_known hp

theorem refresh_follows (hs : s.Coherent) : Follows s s.refresh.signals s.refresh.state :=
  transfer_follows hs s.knows_underCursor

theorem setCursor_follows (hs : s.Coherent) (c : Option Point) :
    Follows s [] { s with pointer := { s.pointer with cursor := c } } :=
  hs.follows_pointer (fun m => by cases m <;> rfl) hs.pressed

theorem cursorMoved_follows (hs : s.Coherent) (p : Point) :
    Follows s (s.cursorMoved p).signals (s.cursorMoved p).state := by
  have hc := setCursor_follows hs (some p)
  exact hc.trans (refresh_follows hc.coherent)

theorem cursorLeft_follows (hs : s.Coherent) :
    Follows s s.cursorLeft.signals s.cursorLeft.state := by
  have hc := setCursor_follows hs none
  exact hc.trans (refresh_follows hc.coherent)

theorem mouseIn_follows (hs : s.Coherent) (id : RectId) :
    Follows s (s.mouseIn id).signals (s.mouseIn id).state := by
  unfold mouseIn
  split
  case isTrue hin => exact transfer_follows hs (knows_some.mpr hin)
  case isFalse => exact hs.refuse

theorem mouseOut_follows (hs : s.Coherent) (id : RectId) :
    Follows s (s.mouseOut id).signals (s.mouseOut id).state := by
  unfold mouseOut
  split
  · exact transfer_follows hs s.knows_none
  · exact hs.refuse

theorem setFocus_of_knows (h : s.Knows target) : s.setFocus target = s.transfer .focus target := by
  cases target with
  | none => exact s.setFocus_none
  | some id => exact setFocus_known (h id rfl)

theorem setFocus_unknown (hin : hasRect s.rects id = false) (h : s.pointer.focused ≠ some id) :
    s.setFocus (some id) = ⟨s, [.refused id], false⟩ := by
  rw [setFocus, if_neg (Ne.symm h)]
  exact if_neg (by simp [hin])

theorem setFocus_follows (hs : s.Coherent) (target : Option RectId) :
    Follows s (s.setFocus target).signals (s.setFocus target).state := by
  by_cases h : s.Knows target
  · rw [setFocus_of_knows h]
    exact transfer_follows hs h
  · cases target with
    | none => exact absurd s.knows_none h
    | some id =>
      have hin : hasRect s.rects id = false := by
        rw [knows_some] at h
        simpa using h
      have hne : s.pointer.focused ≠ some id := fun he => h (he ▸ hs.knows .focus)
      rw [setFocus_unknown hin hne]
      exact hs.follows (fun _ => rfl) fun _ => rfl

theorem blur_follows (hs : s.Coherent) (id : RectId) :
    Follows s (s.blur id).signals (s.blur id).state := by
  unfold blur
  split
  · exact setFocus_follows hs none
  · exact hs.refuse

/-- Events of the button move no mark. -/
theorem handovers_emitAt (s : Stage) (id : RectId) {kinds : List EventKind}
    (h : ∀ kind ∈ kinds, ∀ on, kind ≠ m.event on) : handovers m (s.emitAt kinds id) = [] := by
  rw [handovers, emitAt_events]
  split
  · rw [List.map_eq_nil_iff, List.filter_eq_nil_iff]
    intro e he
    obtain ⟨kind, hkind, rfl⟩ := List.mem_map.mp he
    simp [h kind hkind]
  · rfl

theorem setPressedOn_follows (hs : s.Coherent) (h : s.Knows target) :
    Follows s [] { s with pointer := { s.pointer with pressedOn := target } } :=
  hs.follows_pointer (fun m => by cases m <;> rfl) h

theorem pressed_follows (hs : s.Coherent) : Follows s s.pressed.signals s.pressed.state := by
  have hp := setPressedOn_follows hs (hs.knows .hover)
  have hf := setFocus_follows hp.coherent s.pointer.hovered
  refine (hp.trans hf).trans (hf.coherent.follows ?_ fun _ => rfl)
  intro m
  cases s.pointer.hovered with
  | none => rfl
  | some id =>
    apply handovers_emitAt
    cases m <;> decide

theorem released_follows (hs : s.Coherent) : Follows s s.released.signals s.released.state := by
  have hr := setPressedOn_follows hs s.knows_none
  unfold released
  split
  case h_1 => exact hr
  case h_2 id _ =>
    split
    case isFalse => exact hr
    case isTrue =>
      refine hr.trans (hr.coherent.follows ?_ fun _ => rfl)
      intro m
      apply handovers_emitAt
      split <;> cases m <;> decide

theorem without_follows (hs : s.Coherent) (h : ∀ m, s.pointer.holder m ≠ some id) :
    Follows s [] (s.without id) := by
  have hp : ∀ m, (s.without id).pointer.holder m = s.pointer.holder m := by
    intro m
    cases m with
    | hover => exact if_neg (h .hover)
    | focus => exact if_neg (h .focus)
  refine Coherent.follows ⟨?_, ?_⟩ (fun _ => rfl) hp
  · intro m
    rw [hp]
    exact (hs.marked m).erase (h m)
  · intro x hx
    have hne : s.pointer.pressedOn ≠ some id := by
      intro he
      simp [without, Pointer.forget, he] at hx
    have hpx : s.pointer.pressedOn = some x := (if_neg hne).symm.trans hx
    obtain ⟨r, hr, hid⟩ := hasRect_iff.mp (hs.pressed x hpx)
    -- What was pressed has another identifier than what leaves.
    have hrid : r.id ≠ id := fun he => hne (by rw [hpx, ← hid, he])
    exact hasRect_iff.mpr ⟨r, (List.mem_eraseP_of_neg (by simpa using hrid)).mpr hr, hid⟩

theorem push_follows (hs : s.Coherent) {r : Rectangle} (hr : r.Idle) :
    Follows s [] { s with rects := s.rects ++ [r] } := by
  refine Coherent.follows ⟨?_, ?_⟩ (fun _ => rfl) fun _ => rfl
  · intro m
    exact (hs.marked m).push (Rectangle.idle_iff.mp hr m)
  · intro id hid
    obtain ⟨x, hx, hxid⟩ := hasRect_iff.mp (hs.pressed id hid)
    exact hasRect_iff.mpr ⟨x, List.mem_append_left _ hx, hxid⟩

end Stage

namespace Scene

variable {s : Scene}

/-! ## Operations of a scene -/

theorem empty_holder (v : Viewport) (m : Mark) : (Scene.empty v).stage.pointer.holder m = none := by
  cases m <;> rfl

theorem empty_coherent (v : Viewport) : (Scene.empty v).stage.Coherent := by
  constructor
  · intro m
    rw [empty_holder]
    rfl
  · exact Stage.knows_none _

theorem add_follows (hs : s.stage.Coherent) {r : Rectangle} (hr : r.Idle) :
    s.stage.Follows (s.add r).signals (s.add r).state.stage := by
  have hp := Stage.push_follows hs hr
  exact hp.trans (Stage.refresh_follows hp.coherent)

theorem remove_follows (hs : s.stage.Coherent) (id : RectId) :
    s.stage.Follows (s.remove id).signals (s.remove id).state.stage := by
  cases h : hasRect s.rects id with
  | false =>
    rw [remove_unknown h]
    exact hs.refuse
  | true =>
    have hb := Stage.blur_follows hs id
    have hl := Stage.mouseOut_follows hb.coherent id
    have hw := Stage.without_follows hl.coherent (s.stage.dismiss_holder id)
    rw [remove_known h]
    exact (hb.trans hl).trans (hw.trans (Stage.refresh_follows hw.coherent))

/-- What is taken out has lost its marks. -/
theorem remove_idle (hs : s.stage.Coherent) {id : RectId} {r : Rectangle}
    (h : (s.remove id).answer = some r) : r.Idle := by
  cases hin : hasRect s.rects id with
  | false =>
    rw [remove_unknown hin] at h
    cases h
  | true =>
    rw [remove_known hin] at h
    have hfind : findRect (s.stage.dismiss id).rects id = some r := h
    have hid : r.id = id := by simpa using List.find?_some hfind
    have hl := Stage.mouseOut_follows (Stage.blur_follows hs id).coherent id
    rw [Rectangle.idle_iff]
    intro m
    rw [← Bool.not_eq_true]
    intro hf
    have hholder := (hl.coherent.marked m).holder_of_flag (List.mem_of_find?_eq_some hfind) hf
    rw [hid] at hholder
    exact s.stage.dismiss_holder id m hholder

theorem change_badges (m : Mark) (id : RectId) {f : Rectangle → Rectangle}
    (hf : ∀ r, Marked.badge m (f r) = Marked.badge m r) (rects : List Rectangle) :
    (modify.change id f rects).map (Marked.badge m) = rects.map (Marked.badge m) := by
  induction rects with
  | nil => rfl
  | cons x rest ih =>
    rw [modify.change]
    split
    · simp [hf]
    · simp [ih]

/-- An edit that leaves identifier and flags alone. -/
theorem modify_follows (hs : s.stage.Coherent) (id : RectId) {f : Rectangle → Rectangle}
    (hf : ∀ m r, Marked.badge m (f r) = Marked.badge m r) :
    s.stage.Follows [] (s.modify id f).stage := by
  have hc : (s.modify id f).stage.Coherent :=
    hs.of_flags rfl fun m => change_badges m id (hf m) s.stage.rects
  exact hc.follows (fun _ => rfl) fun _ => rfl

end Scene

end Widgetry
