import Widgetry.Proofs.Frame

/-!
# Handing marks on

A mark goes from holder to holder, and each of them is told when it gains or loses it. `Passes`
says that a sequence of such events leads from one holder to another; such sequences compose, and
one that starts without a holder alternates between gains and losses of the same rectangle.
-/

namespace Widgetry

/-- The events by which a mark changes hands: what happened to whom. -/
def handovers (m : Mark) (signals : List Signal) : List (EventKind × RectId) :=
  ((events signals).filter fun e => e.kind = m.event true ∨ e.kind = m.event false).map
    fun e => (e.kind, e.target)

@[simp] theorem handovers_append (m : Mark) (a b : List Signal) :
    handovers m (a ++ b) = handovers m a ++ handovers m b := by
  simp [handovers]

theorem handovers_exchange {m : Mark} {signals : List Signal} {a b : Option RectId}
    {c : Option Point} (h : events signals =
      a.toList.map (⟨m.event false, ·, c⟩) ++ b.toList.map (⟨m.event true, ·, c⟩)) :
    handovers m signals = a.toList.map (m.event false, ·) ++ b.toList.map (m.event true, ·) := by
  rw [handovers, h]
  cases a <;> cases b <;> simp

/-- The two marks are announced by different events. -/
theorem Mark.event_ne {m n : Mark} (h : n ≠ m) (on on' : Bool) : m.event on ≠ n.event on' := by
  cases m <;> cases n <;> cases on <;> cases on' <;> first | decide | exact absurd rfl h

theorem handovers_exchange_ne {m n : Mark} (hn : n ≠ m) {signals : List Signal}
    {a b : Option RectId} {c : Option Point} (h : events signals =
      a.toList.map (⟨m.event false, ·, c⟩) ++ b.toList.map (⟨m.event true, ·, c⟩)) :
    handovers n signals = [] := by
  rw [handovers, h]
  cases a <;> cases b <;> simp [Mark.event_ne hn]

/-- Gains and losses that lead from one holder of a mark to another. -/
inductive Passes (m : Mark) : Option RectId → List (EventKind × RectId) → Option RectId → Prop where
  | stay (holder : Option RectId) : Passes m holder [] holder
  | gain {id : RectId} {t : List (EventKind × RectId)} {holder : Option RectId} :
      Passes m (some id) t holder → Passes m none ((m.event true, id) :: t) holder
  | lose {id : RectId} {t : List (EventKind × RectId)} {holder : Option RectId} :
      Passes m none t holder → Passes m (some id) ((m.event false, id) :: t) holder

namespace Passes

variable {m : Mark} {a b c : Option RectId} {t u : List (EventKind × RectId)}

theorem trans (h : Passes m a t b) (k : Passes m b u c) : Passes m a (t ++ u) c := by
  induction h with
  | stay _ => exact k
  | gain _ ih => exact gain (ih k)
  | lose _ ih => exact lose (ih k)

/-- The old holder loses the mark, then the new one gains it. -/
theorem exchange (m : Mark) (a b : Option RectId) :
    Passes m a (a.toList.map (m.event false, ·) ++ b.toList.map (m.event true, ·)) b := by
  have hlose : Passes m a (a.toList.map (m.event false, ·)) none := by
    cases a with
    | none => exact stay none
    | some id => exact lose (stay none)
  have hgain : Passes m none (b.toList.map (m.event true, ·)) b := by
    cases b with
    | none => exact stay none
    | some id => exact gain (stay (some id))
  exact hlose.trans hgain

/-- Each gain is followed by the loss of the same holder, except the last one if the mark is still
held. -/
theorem alternates (h : Passes m a t b) :
    ∃ past : List RectId, a.toList.map (m.event true, ·) ++ t =
      past.flatMap (fun id => [(m.event true, id), (m.event false, id)]) ++
        b.toList.map (m.event true, ·) := by
  induction h with
  | stay _ => exact ⟨[], by simp⟩
  | gain _ ih => simpa using ih
  | @lose id _ _ _ ih =>
    obtain ⟨past, hpast⟩ := ih
    exact ⟨id :: past, by simpa using hpast⟩

/-- The mark is held exactly by who gained it last without losing it. -/
theorem held_iff (h : Passes m none t b) (id : RectId) :
    b = some id ↔ t.getLast? = some (m.event true, id) := by
  obtain ⟨past, hpast⟩ := h.alternates
  rw [Option.toList_none, List.map_nil, List.nil_append] at hpast
  rw [hpast]
  cases b with
  | some x => simp
  | none =>
    have hkind : m.event false ≠ m.event true := by cases m <;> decide
    rcases List.eq_nil_or_concat past with rfl | ⟨init, x, rfl⟩
    · simp
    · simp [hkind]

end Passes

section MarkHolder

variable {m : Mark} {c : Option Point} {holder : Option RectId} {rects : List Rectangle}

theorem markHolder_badges {n : Mark} (h : n ≠ m) (on : Bool) (c : Option Point)
    (holder : Option RectId) (rects : List Rectangle) :
    (markHolder m on c holder rects).1.map (Marked.badge n) = rects.map (Marked.badge n) := by
  cases holder with
  | none => rfl
  | some id => exact markRect_badges h on c id rects

theorem markHolder_take (h : Marked m holder rects) :
    Marked m none (markHolder m false c holder rects).1 ∧
      events (markHolder m false c holder rects).2 =
        holder.toList.map (⟨m.event false, ·, c⟩) := by
  cases holder with
  | none => exact ⟨h, rfl⟩
  | some id => exact markRect_take h

theorem markHolder_give (h : Marked m none rects)
    (hin : ∀ id, holder = some id → hasRect rects id = true) :
    Marked m holder (markHolder m true c holder rects).1 ∧
      events (markHolder m true c holder rects).2 =
        holder.toList.map (⟨m.event true, ·, c⟩) := by
  cases holder with
  | none => exact ⟨h, rfl⟩
  | some id => exact markRect_give h (hin id rfl)

/-- Taking a mark from one holder and giving it to another. -/
theorem markHolder_exchange {target : Option RectId} (h : Marked m holder rects)
    (hin : ∀ id, target = some id → hasRect rects id = true) :
    let lost := markHolder m false c holder rects
    let gained := markHolder m true c target lost.1
    Marked m target gained.1 ∧
      events (lost.2 ++ gained.2) =
        holder.toList.map (⟨m.event false, ·, c⟩) ++ target.toList.map (⟨m.event true, ·, c⟩) := by
  intro lost gained
  obtain ⟨hlost, hlostEvents⟩ := markHolder_take (c := c) h
  have hin' : ∀ id, target = some id → hasRect lost.1 id = true := by
    intro id hid
    rw [hasRect_of_bare (markHolder_bare ..)]
    exact hin id hid
  obtain ⟨hgained, hgainedEvents⟩ := markHolder_give (c := c) hlost hin'
  refine ⟨hgained, ?_⟩
  rw [events_append, hlostEvents, hgainedEvents]

end MarkHolder

end Widgetry
