import Mathlib.Algebra.Order.Ring.Nat
import Mathlib.Data.List.Basic
import Mathlib.Data.List.Induction
import Widgetry.Event

/-!
# Bags of listeners and their history

Bags are filled, cleared, copied and told of events in any order. What a bag runs is known from
what was done on its line: to the bag itself since it was copied, and before that to the bag that
it was copied from (`line`). Of the registrations for a kind those stand that no clearing came
after (`standing`). `bags_follow_their_history` says that every emission runs just these.
-/

namespace Widgetry.Listeners

/-- What changes a bag. -/
inductive Change where
  | on (kind : EventKind) (listener : Listener)
  | clear (kind : EventKind)
  | clearAll

namespace Change

def apply : Change → Listeners → Listeners
  | .on kind listener, bag => bag.on kind listener
  | .clear kind, bag => bag.clear kind
  | .clearAll, bag => bag.clearAll

/-- Whether it takes away the registrations for a kind. -/
def clears (kind : EventKind) : Change → Bool
  | .on .. => false
  | .clear k => k = kind
  | .clearAll => true

/-- The listener that it registers for a kind. -/
def registers? (kind : EventKind) : Change → Option Listener
  | .on k listener => if k = kind then some listener else none
  | _ => none

end Change

/-- What can be done with bags, each known by a number: a change of one, a copy that becomes a bag
of its own, and an event. -/
inductive Command where
  | change (bag : Nat) (c : Change)
  | copy (source bag : Nat)
  | emit (bag : Nat) (event : Event)

/-- The bag that a command changes or makes. -/
def Command.subject? : Command → Option Nat
  | .change bag _ => some bag
  | .copy _ bag => some bag
  | .emit .. => none

/-- Any number of bags. -/
abbrev Shelf := Nat → Listeners

namespace Shelf

/-- New bags. -/
def fresh : Shelf := fun _ => {}

def put (s : Shelf) (i : Nat) (bag : Listeners) : Shelf := fun j => if j = i then bag else s j

/-- What a command leaves, and what an event did. -/
def step (s : Shelf) : Command → Shelf × List Emission
  | .change i c => (s.put i (c.apply (s i)), [])
  | .copy source i => (s.put i (s source), [])
  | .emit i event => (s, [(s i).emit event])

/-- Commands one after the other. -/
def run (s : Shelf) : List Command → Shelf × List Emission
  | [] => (s, [])
  | c :: rest => ((run (s.step c).1 rest).1, (s.step c).2 ++ (run (s.step c).1 rest).2)

theorem run_append (s : Shelf) (before later : List Command) : s.run (before ++ later) =
    (((s.run before).1.run later).1, (s.run before).2 ++ ((s.run before).1.run later).2) := by
  induction before generalizing s with
  | nil => rfl
  | cons c rest ih => simp [run, ih]

/-- Only the bag that a command is about is another one afterwards. -/
theorem step_other (s : Shelf) {c : Command} {i : Nat} (h : c.subject? ≠ some i) :
    (s.step c).1 i = s i := by
  cases c with
  | change j c => exact if_neg fun hij => h (congrArg some hij.symm)
  | copy source j => exact if_neg fun hij => h (congrArg some hij.symm)
  | emit j event => rfl

end Shelf

/-! ## Emissions -/

theorem runs_cons (k : EventKind) (listener : Listener) (rest : List (EventKind × Listener))
    (kind : EventKind) : runs ⟨(k, listener) :: rest⟩ kind =
      (if k = kind then [listener] else []) ++ runs ⟨rest⟩ kind := by
  by_cases hkind : k = kind <;> simp [runs, hkind]

/-- The loop over a bag adds the listeners of the kind to what was done before. -/
theorem emit_loop (event : Event) (entries : List (EventKind × Listener)) (done : Emission) :
    entries.foldl (fun done (kind, listener) => if kind = event.kind then
      (⟨done.told ++ [(listener, event)], done.ran + 1⟩ : Emission) else done) done =
    ⟨done.told ++ (runs ⟨entries⟩ event.kind).map (·, event),
      done.ran + (runs ⟨entries⟩ event.kind).length⟩ := by
  induction entries generalizing done with
  | nil => rw [List.foldl_nil, runs, List.filterMap_nil, List.map_nil, List.append_nil]; rfl
  | cons entry rest ih =>
    obtain ⟨kind, listener⟩ := entry
    rw [List.foldl_cons, ih, runs_cons]
    by_cases hkind : kind = event.kind
    · simp only [hkind, if_true, List.map_append, List.length_append, List.append_assoc,
        Nat.add_assoc]
      rfl
    · simp only [hkind, if_false, List.nil_append]

/-- An event is told to the listeners that its kind runs. -/
theorem emit_eq (bag : Listeners) (event : Event) : bag.emit event =
    ⟨(bag.runs event.kind).map (·, event), (bag.runs event.kind).length⟩ := by
  rw [emit, emit_loop, List.nil_append, Nat.zero_add]

theorem count_eq (bag : Listeners) (kind : EventKind) :
    bag.count kind = (bag.runs kind).length := by
  rw [count, runs, List.length_filterMap_eq_countP]
  refine List.countP_congr fun entry _ => ?_
  by_cases hkind : entry.1 = kind <;> simp [hkind]

/-- Every registration counts for exactly one kind. -/
theorem counts_sum (bag : Listeners) : (EventKind.all.map bag.count).sum = bag.size := by
  obtain ⟨entries⟩ := bag
  induction entries with
  | nil => rfl
  | cons entry rest ih =>
    obtain ⟨k, listener⟩ := entry
    simp only [count, size, EventKind.all, List.map_cons, List.map_nil, List.sum_cons,
      List.sum_nil, List.countP_cons, List.length_cons] at ih ⊢
    cases k <;> simp <;> omega

/-! ## Lines -/

/-- What was done on the line of a bag. Both the history and the line have the latest first. -/
def line : List Command → Nat → List Change
  | [], _ => []
  | .change i c :: past, bag => if bag = i then c :: line past bag else line past bag
  | .copy source i :: past, bag => if bag = i then line past source else line past bag
  | .emit .. :: past, bag => line past bag

/-- The listeners for a kind that were registered since it was cleared last, in the order of their
registration; the line has the latest first. -/
def standing (kind : EventKind) (changes : List Change) : List Listener :=
  ((changes.takeWhile (!·.clears kind)).filterMap (·.registers? kind)).reverse

theorem standing_cons (kind : EventKind) (c : Change) (past : List Change) :
    standing kind (c :: past) =
      if c.clears kind then [] else standing kind past ++ (c.registers? kind).toList := by
  rw [standing, standing, List.takeWhile_cons]
  cases c.clears kind with
  | true => rfl
  | false => cases hreg : c.registers? kind <;> simp [hreg]

theorem on_runs (bag : Listeners) (k : EventKind) (listener : Listener) (kind : EventKind) :
    (bag.on k listener).runs kind = bag.runs kind ++ if k = kind then [listener] else [] := by
  have hlast := runs_cons k listener [] kind
  rw [show runs ⟨[]⟩ kind = [] from rfl, List.append_nil] at hlast
  rw [← hlast]
  exact List.filterMap_append

theorem clear_runs (bag : Listeners) (k kind : EventKind) :
    (bag.clear k).runs kind = if k = kind then [] else bag.runs kind := by
  rw [clear, runs, List.filterMap_filter]
  by_cases hkind : k = kind
  · rw [if_pos hkind, List.filterMap_eq_nil_iff]
    intro entry _
    by_cases hentry : entry.1 = kind <;> simp [hkind, hentry]
  · rw [if_neg hkind, runs]
    refine List.filterMap_congr fun entry _ => ?_
    by_cases hentry : entry.1 = kind
    · simp [hentry, Ne.symm hkind]
    · simp [hentry]

/-- What a change does to what a bag runs. -/
theorem apply_runs (c : Change) (bag : Listeners) (kind : EventKind) : (c.apply bag).runs kind =
    if c.clears kind then [] else bag.runs kind ++ (c.registers? kind).toList := by
  cases c with
  | on k listener =>
    rw [Change.apply, on_runs]
    by_cases hkind : k = kind <;> simp [Change.clears, Change.registers?, hkind]
  | clear k =>
    rw [Change.apply, clear_runs]
    simp [Change.clears, Change.registers?]
  | clearAll => rfl

theorem Shelf.put_runs (s : Shelf) (i j : Nat) (bag : Listeners) (kind : EventKind) :
    (s.put i bag j).runs kind = if j = i then bag.runs kind else (s j).runs kind := by
  rw [Shelf.put]
  split <;> rfl

/-- What a bag runs is what stands on its line. -/
theorem run_runs (history : List Command) (bag : Nat) (kind : EventKind) :
    ((Shelf.fresh.run history).1 bag).runs kind = standing kind (line history.reverse bag) := by
  induction history using List.reverseRecOn generalizing bag with
  | nil => rfl
  | append_singleton past command ih =>
    rw [Shelf.run_append, List.reverse_append, List.reverse_singleton, List.singleton_append]
    show (((Shelf.fresh.run past).1.step command).1 bag).runs kind = _
    cases command with
    | change i c =>
      rw [Shelf.step, Shelf.put_runs, line, apply_runs, ih, ih]
      by_cases hbag : bag = i
      · rw [if_pos hbag, if_pos hbag, standing_cons, hbag]
      · rw [if_neg hbag, if_neg hbag]
    | copy source i =>
      rw [Shelf.step, Shelf.put_runs, line, ih, ih]
      by_cases hbag : bag = i
      · rw [if_pos hbag, if_pos hbag]
      · rw [if_neg hbag, if_neg hbag]
    | emit i event => exact ih bag

/-- Over every sequence of commands on any number of new bags: an event runs the listeners that
were registered for its kind on the line of its bag and not cleared since, each once for each
registration, in order, and tells each of them that event. The number that it returns is how many
these are and what `count` says. The counts of all kinds add up to the size of a bag, and a command
changes no bag but its own. -/
theorem bags_follow_their_history (past : List Command) (bag : Nat) :
    (∀ event later, (Shelf.fresh.run (past ++ .emit bag event :: later)).2[
        (Shelf.fresh.run past).2.length]? =
      some ⟨(standing event.kind (line past.reverse bag)).map (·, event),
        ((Shelf.fresh.run past).1 bag).count event.kind⟩) ∧
      (∀ kind, ((Shelf.fresh.run past).1 bag).count kind =
        (standing kind (line past.reverse bag)).length) ∧
      (EventKind.all.map ((Shelf.fresh.run past).1 bag).count).sum =
        ((Shelf.fresh.run past).1 bag).size ∧
      ∀ command : Command, command.subject? ≠ some bag →
        (Shelf.fresh.run (past ++ [command])).1 bag = (Shelf.fresh.run past).1 bag := by
  refine ⟨?_, ?_, counts_sum _, ?_⟩
  · intro event later
    rw [Shelf.run_append, List.getElem?_append_right (Nat.le_refl _), Nat.sub_self]
    show some (((Shelf.fresh.run past).1 bag).emit event) = _
    rw [emit_eq, count_eq, run_runs]
  · intro kind
    rw [count_eq, run_runs]
  · intro command hother
    rw [Shelf.run_append]
    exact Shelf.step_other _ hother

end Widgetry.Listeners
