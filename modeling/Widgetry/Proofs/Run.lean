import Widgetry.Proofs.Coherence

/-!
# Runs of a scene

A run is any finite sequence of operations on a scene that starts empty. Rectangles are added
without marks, under identifiers that may repeat, and edits leave identifiers and flags alone; both
are part of `Op`. What holds of every run is proved of one step and carried along.
-/

namespace Widgetry

namespace Scene

/-- An edit of place, size, colors or listeners. -/
structure Edit where
  apply : Rectangle → Rectangle
  id_eq : ∀ r, (apply r).id = r.id
  hovered_eq : ∀ r, (apply r).hovered = r.hovered
  focused_eq : ∀ r, (apply r).focused = r.focused

/-- What can be asked of a scene. -/
inductive Op where
  | add (r : Rectangle) (idle : r.Idle)
  | remove (id : RectId)
  | edit (id : RectId) (e : Edit)
  | resize (v : Viewport)
  | cursorMoved (p : Point)
  | cursorLeft
  | pressed
  | released
  | setFocus (target : Option RectId)
  | focus (id : RectId)
  | blur (id : RectId)
  | mouseIn (id : RectId)
  | mouseOut (id : RectId)
  | refresh

/-- What an operation leaves and what it signals. -/
def step (s : Scene) : Op → Scene × List Signal
  | .add r _ => ((s.add r).state, (s.add r).signals)
  | .remove id => ((s.remove id).state, (s.remove id).signals)
  | .edit id e => (s.modify id e.apply, [])
  | .resize v => (s.resize v, [])
  | .cursorMoved p => ((s.cursorMoved p).state, (s.cursorMoved p).signals)
  | .cursorLeft => (s.cursorLeft.state, s.cursorLeft.signals)
  | .pressed => (s.pressed.state, s.pressed.signals)
  | .released => (s.released.state, s.released.signals)
  | .setFocus target => ((s.setFocus target).state, (s.setFocus target).signals)
  | .focus id => ((s.focus id).state, (s.focus id).signals)
  | .blur id => ((s.blur id).state, (s.blur id).signals)
  | .mouseIn id => ((s.mouseIn id).state, (s.mouseIn id).signals)
  | .mouseOut id => ((s.mouseOut id).state, (s.mouseOut id).signals)
  | .refresh => (s.refresh.state, s.refresh.signals)

/-- Operations one after the other. -/
def run (s : Scene) : List Op → Scene × List Signal
  | [] => (s, [])
  | op :: rest => ((run (s.step op).1 rest).1, (s.step op).2 ++ (run (s.step op).1 rest).2)

/-- The scene after a run. -/
def after (v : Viewport) (ops : List Op) : Scene := ((Scene.empty v).run ops).1

/-- Everything signalled during a run. -/
def signalled (v : Viewport) (ops : List Op) : List Signal := ((Scene.empty v).run ops).2

theorem run_append (s : Scene) (before later : List Op) :
    s.run (before ++ later) =
      (((s.run before).1.run later).1, (s.run before).2 ++ ((s.run before).1.run later).2) := by
  induction before generalizing s with
  | nil => rfl
  | cons op rest ih => simp [run, ih]

theorem after_append (v : Viewport) (before later : List Op) :
    after v (before ++ later) = ((after v before).run later).1 := by
  rw [after, run_append]
  rfl

theorem after_concat (v : Viewport) (before : List Op) (op : Op) :
    after v (before ++ [op]) = ((after v before).step op).1 :=
  after_append v before [op]

theorem step_follows {s : Scene} (hs : s.stage.Coherent) (op : Op) :
    s.stage.Follows (s.step op).2 (s.step op).1.stage := by
  cases op with
  | add r idle => exact add_follows hs idle
  | remove id => exact remove_follows hs id
  | edit id e =>
    apply modify_follows hs id
    intro m r
    cases m with
    | hover => exact Prod.ext (e.id_eq r) (e.hovered_eq r)
    | focus => exact Prod.ext (e.id_eq r) (e.focused_eq r)
  | resize v =>
    show s.stage.Follows [] (s.resize v).stage
    rw [resize_stage]
    exact hs.refuse
  | cursorMoved p => exact Stage.cursorMoved_follows hs p
  | cursorLeft => exact Stage.cursorLeft_follows hs
  | pressed => exact Stage.pressed_follows hs
  | released => exact Stage.released_follows hs
  | setFocus target => exact Stage.setFocus_follows hs target
  | focus id => exact Stage.setFocus_follows hs (some id)
  | blur id => exact Stage.blur_follows hs id
  | mouseIn id => exact Stage.mouseIn_follows hs id
  | mouseOut id => exact Stage.mouseOut_follows hs id
  | refresh => exact Stage.refresh_follows hs

theorem run_follows {s : Scene} (hs : s.stage.Coherent) (ops : List Op) :
    s.stage.Follows (s.run ops).2 (s.run ops).1.stage := by
  induction ops generalizing s with
  | nil => exact hs.follows (fun _ => rfl) fun _ => rfl
  | cons op rest ih =>
    have hop := step_follows hs op
    exact hop.trans (ih hop.coherent)

theorem after_coherent (v : Viewport) (ops : List Op) : (after v ops).stage.Coherent :=
  (run_follows (empty_coherent v) ops).coherent

/-- After every run the flags and the pointer tell the same story: a rectangle is flagged exactly
if it is the first one with the identifier that the pointer has, and every identifier the pointer
has is in the scene. So no mark is given twice, and what is taken out comes back without marks. -/
theorem flags_agree_with_pointer (v : Viewport) (ops : List Op) :
    let s := after v ops
    (∀ (m : Mark) (i : Nat) (hi : i < s.rects.length), s.rects[i].has m = true ↔
      s.pointer.holder m = some s.rects[i].id ∧
        ∀ (j : Nat) (hj : j < i), s.rects[j].id ≠ s.rects[i].id) ∧
    (∀ m id, s.pointer.holder m = some id → ∃ r ∈ s.rects, r.id = id) ∧
    (∀ id, s.pointer.pressedOn = some id → ∃ r ∈ s.rects, r.id = id) ∧
    (∀ m, s.rects.countP (·.has m) ≤ 1) ∧
    ∀ id r, (s.remove id).answer = some r → r.hovered = false ∧ r.focused = false := by
  intro s
  have hs : s.stage.Coherent := after_coherent v ops
  refine ⟨?_, ?_, ?_, ?_, ?_⟩
  · intro m i hi
    exact (hs.marked m).flag_iff i hi
  · intro m id hid
    exact hasRect_iff.mp (hs.knows m id hid)
  · intro id hid
    exact hasRect_iff.mp (hs.pressed id hid)
  · intro m
    exact (hs.marked m).count_le_one
  · intro id r hr
    exact remove_idle hs hr

/-- During every run a mark changes hands in turn: each gain is followed by the loss of the same
rectangle before anybody else gains it. The last gain is open exactly if the pointer has that
rectangle as holder. -/
theorem marks_change_hands_in_turn (v : Viewport) (ops : List Op) (m : Mark) :
    let held := (after v ops).pointer.holder m
    let trace := handovers m (signalled v ops)
    (∃ past : List RectId, trace =
      past.flatMap (fun id => [(m.event true, id), (m.event false, id)]) ++
        held.toList.map (m.event true, ·)) ∧
    ∀ id, held = some id ↔ trace.getLast? = some (m.event true, id) := by
  intro held trace
  have hpass : Passes m none trace held := by
    have h := (run_follows (empty_coherent v) ops).passes m
    rw [empty_holder] at h
    exact h
  exact ⟨hpass.alternates, hpass.held_iff⟩

end Scene

end Widgetry
