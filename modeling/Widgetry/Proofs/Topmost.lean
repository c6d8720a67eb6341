import Mathlib.Data.List.Nodup
import Widgetry.Proofs.Run

/-!
# Hover is on top

The rectangle under the cursor is the last one in the stack that contains it. A scene is synced
when hover is there. Operations that look again for it sync any scene, whatever went before; those
that have nothing to do with hover keep a synced scene so.
-/

namespace Widgetry

/-- The place of the topmost rectangle that contains a point. -/
def IsTopmost (rects : List Rectangle) (p : Point) (i : Fin rects.length) : Prop :=
  rects[i].contains p = true ∧ ∀ j : Fin rects.length, i < j → rects[j].contains p = false

theorem IsTopmost.unique {rects : List Rectangle} {p : Point} {i j : Fin rects.length}
    (hi : IsTopmost rects p i) (hj : IsTopmost rects p j) : i = j := by
  rcases Nat.lt_trichotomy i.val j.val with h | h | h
  · exact absurd (hj.1.symm.trans (hi.2 j h)) (by decide)
  · exact Fin.ext h
  · exact absurd (hi.1.symm.trans (hj.2 i h)) (by decide)

theorem topmostAt_eq_none_iff {rects : List Rectangle} {p : Point} :
    topmostAt rects p = none ↔ ∀ r ∈ rects, r.contains p = false := by
  simp [topmostAt]

theorem topmostAt_isTopmost {rects : List Rectangle} {p : Point} {id : RectId}
    (h : topmostAt rects p = some id) : ∃ i, IsTopmost rects p i ∧ rects[i].id = id := by
  rw [topmostAt, Option.map_eq_some_iff] at h
  obtain ⟨r, hfind, hid⟩ := h
  obtain ⟨hr, above, below, hsplit, habove⟩ := List.find?_eq_some_iff_append.mp hfind
  have hrects : rects = below.reverse ++ [r] ++ above.reverse := by
    rw [← List.reverse_reverse rects, hsplit]
    simp
  subst hrects
  refine ⟨⟨below.length, by simp⟩, ⟨by simpa using hr, ?_⟩, by simpa using hid⟩
  intro j hj
  have hle : (below.reverse ++ [r]).length ≤ j.val := by
    have hlt : below.length < j.val := hj
    rw [List.length_append, List.length_reverse, List.length_singleton]
    omega
  have hmem : (below.reverse ++ [r] ++ above.reverse)[j] ∈ above := by
    rw [Fin.getElem_fin, List.getElem_append_right hle]
    exact List.mem_reverse.mp (List.getElem_mem _)
  simpa using habove _ hmem

/-- The hit test finds the topmost rectangle. -/
theorem topmostAt_eq_some_iff {rects : List Rectangle} {p : Point} {id : RectId} :
    topmostAt rects p = some id ↔ ∃ i, IsTopmost rects p i ∧ rects[i].id = id := by
  constructor
  · exact topmostAt_isTopmost
  · rintro ⟨i, hi, hid⟩
    cases h : topmostAt rects p with
    | none =>
      have hout := topmostAt_eq_none_iff.mp h _ (List.getElem_mem i.isLt)
      exact absurd (hi.1.symm.trans hout) (by decide)
    | some x =>
      obtain ⟨j, hj, hjx⟩ := topmostAt_isTopmost h
      rw [hj.unique hi] at hjx
      rw [← hjx, hid]

theorem eq_topmostAt_iff {rects : List Rectangle} {p : Point} {holder : Option RectId} :
    holder = topmostAt rects p ↔
      (holder = none ∧ ∀ r ∈ rects, r.contains p = false) ∨
      ∃ i, IsTopmost rects p i ∧ holder = some rects[i].id := by
  rw [eq_comm]
  cases holder with
  | none =>
    rw [topmostAt_eq_none_iff]
    simp
  | some id =>
    rw [topmostAt_eq_some_iff]
    constructor
    · rintro ⟨i, hi, hid⟩
      exact .inr ⟨i, hi, by rw [hid]⟩
    · rintro (⟨hnone, _⟩ | ⟨i, hi, hid⟩)
      · cases hnone
      · exact ⟨i, hi, (Option.some.inj hid).symm⟩

/-- What a cursor hits: nothing if it is nowhere or over no rectangle, and else the topmost
rectangle that contains it. -/
def IsHit (rects : List Rectangle) (cursor : Option Point) (hit : Option RectId) : Prop :=
  match cursor with
  | none => hit = none
  | some p =>
    (hit = none ∧ ∀ r ∈ rects, r.contains p = false) ∨
    ∃ i, IsTopmost rects p i ∧ hit = some rects[i].id

theorem isHit_iff {rects : List Rectangle} {cursor : Option Point} {hit : Option RectId} :
    IsHit rects cursor hit ↔ hit = cursor.bind (topmostAt rects) := by
  cases cursor with
  | none => rfl
  | some p => exact eq_topmostAt_iff.symm

namespace Stage

variable {s t : Stage}

theorem underCursor_congr (hc : t.pointer.cursor = s.pointer.cursor)
    (hb : t.rects.map Rectangle.bare = s.rects.map Rectangle.bare) :
    t.underCursor = s.underCursor := by
  rw [underCursor, underCursor, hc, funext (topmostAt_of_bare hb)]

/-- Hover is on what is under the cursor. -/
def InSync (s : Stage) : Prop := s.pointer.hovered = s.underCursor

theorem InSync.congr (h : s.InSync) (hc : t.pointer.cursor = s.pointer.cursor)
    (hh : t.pointer.hovered = s.pointer.hovered)
    (hb : t.rects.map Rectangle.bare = s.rects.map Rectangle.bare) : t.InSync := by
  rw [InSync, hh, underCursor_congr hc hb]
  exact h

theorem refresh_inSync (s : Stage) : s.refresh.state.InSync := by
  have hm := s.refresh_moves
  have hp : s.refresh.state.pointer = s.pointer.setHolder .hover s.underCursor :=
    s.transfer_pointer .hover s.underCursor
  rw [InSync, underCursor_congr hm.cursor hm.bare, hp]
  rfl

theorem InSync.focus {α : Type} {o : Outcome Stage α} (h : s.InSync) (hm : Moves .focus s o) :
    o.state.InSync :=
  h.congr hm.cursor (hm.holder_ne (n := .hover) (by decide)) hm.bare

theorem pressed_inSync (h : s.InSync) : s.pressed.state.InSync := by
  have hp : InSync { s with pointer := { s.pointer with pressedOn := s.pointer.hovered } } := h
  have hf := hp.focus (Stage.setFocus_moves _ s.pointer.hovered)
  exact hf

theorem released_inSync (h : s.InSync) : s.released.state.InSync := by
  unfold released
  split
  · exact h
  · split
    · exact h
    · exact h

end Stage

namespace Scene

variable {s : Scene}

/-- Hover is nowhere if the cursor is nowhere or over no rectangle, and else on the topmost
rectangle that contains the cursor. -/
def Synced (s : Scene) : Prop := IsHit s.rects s.pointer.cursor s.pointer.hovered

theorem synced_iff : s.Synced ↔ s.stage.InSync := isHit_iff

/-- Operations that look again for what is under the cursor. -/
def Retests (s : Scene) : Op → Prop
  | .add .. => True
  | .remove id => (s.remove id).answer.isSome = true
  | .cursorMoved _ => True
  | .cursorLeft => True
  | .refresh => True
  | _ => False

/-- Operations that have nothing to do with hover. -/
def SparesHover (s : Scene) : Op → Prop
  | .remove id => (s.remove id).answer = none
  | .resize _ => True
  | .pressed => True
  | .released => True
  | .setFocus _ => True
  | .focus _ => True
  | .blur _ => True
  | _ => False

theorem step_synced_of_retests {op : Op} (h : s.Retests op) : (s.step op).1.Synced := by
  rw [synced_iff]
  cases op with
  | add r idle => exact Stage.refresh_inSync _
  | remove id =>
    have hin : hasRect s.rects id = true := (s.remove_answer_isSome id).symm.trans h
    simp only [step, remove_known hin]
    exact Stage.refresh_inSync _
  | cursorMoved p => exact Stage.refresh_inSync _
  | cursorLeft => exact Stage.refresh_inSync _
  | refresh => exact Stage.refresh_inSync _
  | _ => cases h

theorem step_synced_of_spares {op : Op} (h : s.SparesHover op) (hs : s.Synced) :
    (s.step op).1.Synced := by
  rw [synced_iff] at hs ⊢
  cases op with
  | remove id =>
    have hout : hasRect s.rects id = false := by
      rw [← s.remove_answer_isSome id, h]
      rfl
    simp only [step, remove_unknown hout]
    exact hs
  | resize v =>
    show (s.resize v).stage.InSync
    rw [resize_stage]
    exact hs
  | pressed => exact Stage.pressed_inSync hs
  | released => exact Stage.released_inSync hs
  | setFocus target => exact hs.focus (s.stage.setFocus_moves target)
  | focus id => exact hs.focus (s.stage.setFocus_moves (some id))
  | blur id => exact hs.focus (s.stage.blur_moves id)
  | _ => cases h

/-- With identifiers that do not repeat, the flagged rectangle of a synced scene is itself the
topmost one under the cursor. -/
theorem Synced.flag_iff (h : s.Synced) (hs : s.stage.Coherent) (hids : (s.rects.map (·.id)).Nodup)
    (i : Fin s.rects.length) :
    s.rects[i].hovered = true ↔ ∃ p, s.pointer.cursor = some p ∧ IsTopmost s.rects p i := by
  have hflag : s.rects[i].hovered = true ↔ s.pointer.hovered = some s.rects[i].id ∧
      ∀ (j : Nat) (hj : j < i.val), s.rects[j].id ≠ s.rects[i].id :=
    (hs.marked .hover).flag_iff i.val i.isLt
  have hinj : ∀ (j k : Nat) (hj : j < s.rects.length) (hk : k < s.rects.length),
      s.rects[j].id = s.rects[k].id → j = k := by
    intro j k hj hk he
    have hsame := List.inj_on_of_nodup_map hids (List.getElem_mem hj) (List.getElem_mem hk) he
    exact (List.Nodup.of_map _ hids).getElem_inj_iff.mp hsame
  rw [hflag]
  rw [Synced] at h
  cases hc : s.pointer.cursor with
  | none =>
    rw [hc] at h
    have hnone : s.pointer.hovered = none := h
    simp [hnone]
  | some p =>
    rw [hc] at h
    rcases h with ⟨hnone, hout⟩ | ⟨k, hk, hid⟩
    · have hi : ¬ IsTopmost s.rects p i := by
        intro htop
        have hf := hout _ (List.getElem_mem i.isLt)
        exact absurd (htop.1.symm.trans hf) (by decide)
      simp [hnone, hi]
    · constructor
      · rintro ⟨hi, _⟩
        have hki : k = i := Fin.ext (hinj k i k.isLt i.isLt (Option.some.inj (hid.symm.trans hi)))
        exact ⟨p, rfl, hki ▸ hk⟩
      · rintro ⟨q, hq, htop⟩
        cases hq
        refine ⟨?_, ?_⟩
        · rw [hid, hk.unique htop]
        · intro j hj he
          have hji := hinj j i (by omega) i.isLt he
          omega

/-- After any run, an operation that looks again for what is under the cursor leaves the scene
synced, and one that has nothing to do with hover leaves a synced scene synced. With identifiers
that do not repeat, the flagged rectangle is then the topmost one under the cursor. -/
theorem hover_is_topmost (v : Viewport) (ops : List Op) (op : Op)
    (h : (after v ops).Retests op ∨ ((after v ops).SparesHover op ∧ (after v ops).Synced)) :
    let s := ((after v ops).step op).1
    s.Synced ∧ ((s.rects.map (·.id)).Nodup → ∀ i : Fin s.rects.length,
      s.rects[i].hovered = true ↔ ∃ p, s.pointer.cursor = some p ∧ IsTopmost s.rects p i) := by
  intro s
  have hsync : s.Synced := by
    rcases h with h | ⟨h, hs⟩
    · exact step_synced_of_retests h
    · exact step_synced_of_spares h hs
  have hs : s.stage.Coherent := (step_follows (after_coherent v ops) op).coherent
  exact ⟨hsync, fun hids i => hsync.flag_iff hs hids i⟩

/-- Moves a rectangle out of the way. -/
def Edit.away : Edit where
  apply r := r.moveTo ⟨100, 100⟩
  id_eq _ := rfl
  hovered_eq _ := rfl
  focused_eq _ := rfl

/-- Two rectangles under the cursor; the upper one is moved away, and hover does not notice. -/
def uncovered : List Op :=
  [.add (.make ⟨1⟩ ⟨0, 0⟩ 10 10) ⟨rfl, rfl⟩, .add (.make ⟨2⟩ ⟨0, 0⟩ 10 10) ⟨rfl, rfl⟩,
    .cursorMoved ⟨5, 5⟩, .edit ⟨2⟩ .away]

theorem hover_is_topmost_uncovered :
    let s := ((after .standard uncovered).step .refresh).1
    (after .standard uncovered).pointer.hovered = some ⟨2⟩ ∧ s.pointer.hovered = some ⟨1⟩ ∧
    s.Synced ∧ ∃ p, s.pointer.cursor = some p ∧ IsTopmost s.rects p ⟨0, by decide +kernel⟩ := by
  have h := hover_is_topmost .standard uncovered .refresh (.inl trivial)
  refine ⟨by decide +kernel, by decide +kernel, h.1, ?_⟩
  exact (h.2 (by decide +kernel) ⟨0, by decide +kernel⟩).mp (by decide +kernel)

end Scene

end Widgetry
