import Widgetry.Geometry
import Widgetry.RectId

/-!
# Events and their listeners

A bag of listeners holds registrations in order. Emitting an event runs the listeners registered
for its kind, in that order.
-/

namespace Widgetry

/-- What can happen to a rectangle. -/
inductive EventKind where
  | mouseIn
  | mouseOut
  | press
  | release
  | click
  | focus
  | blur
  deriving DecidableEq, Repr

namespace EventKind

/-- Every kind, in the order in which they are listed to users. -/
def all : List EventKind := [.mouseIn, .mouseOut, .press, .release, .click, .focus, .blur]

/-- The word used in messages. -/
def label : EventKind → String
  | .mouseIn => "mouse-in"
  | .mouseOut => "mouse-out"
  | .press => "press"
  | .release => "release"
  | .click => "click"
  | .focus => "focus"
  | .blur => "blur"

/-- The word used in files. -/
def name : EventKind → String
  | .mouseIn => "MouseIn"
  | .mouseOut => "MouseOut"
  | .press => "Press"
  | .release => "Release"
  | .click => "Click"
  | .focus => "Focus"
  | .blur => "Blur"

/-- The kind with a given name. -/
def ofName? (s : String) : Option EventKind := all.find? fun k => k.name == s

end EventKind

/-- What a listener is told: what happened to which rectangle, and where the cursor was last seen.
-/
structure Event where
  kind : EventKind
  target : RectId
  cursor : Option Point

/-- A registered reaction, known by its tag. -/
structure Listener where
  tag : Int
  deriving DecidableEq, Repr

/-- A bag of listeners in registration order. -/
structure Listeners where
  entries : List (EventKind × Listener) := []
  deriving DecidableEq, Repr

namespace Listeners

/-- A bag with one more registration. -/
def on (bag : Listeners) (kind : EventKind) (listener : Listener) : Listeners :=
  ⟨bag.entries ++ [(kind, listener)]⟩

/-- The listeners that an event of a kind runs. -/
def runs (bag : Listeners) (kind : EventKind) : List Listener :=
  bag.entries.filterMap fun (k, listener) => if k = kind then some listener else none

/-- What an event did: the listeners that ran, each with what it was told, and how many they are.
-/
structure Emission where
  told : List (Listener × Event) := []
  ran : Nat := 0

/-- Runs the listeners registered for the kind of an event, one after the other, and counts them.
-/
def emit (bag : Listeners) (event : Event) : Emission :=
  bag.entries.foldl (fun done (kind, listener) =>
    if kind = event.kind then ⟨done.told ++ [(listener, event)], done.ran + 1⟩ else done) {}

/-- How many listeners are registered for a kind. -/
def count (bag : Listeners) (kind : EventKind) : Nat := bag.entries.countP fun (k, _) => k = kind

/-- A bag without the registrations for a kind. -/
def clear (bag : Listeners) (kind : EventKind) : Listeners :=
  ⟨bag.entries.filter fun (k, _) => k ≠ kind⟩

/-- A bag without registrations. -/
def clearAll (_ : Listeners) : Listeners := {}

/-- How many registrations there are. -/
def size (bag : Listeners) : Nat := bag.entries.length

def isEmpty (bag : Listeners) : Bool := bag.entries.isEmpty

/-- The labels of the registrations, each in quotes. -/
def labels (bag : Listeners) : List String := bag.entries.map fun (k, _) => "\"" ++ k.label ++ "\""

/-- A description on one line. -/
def describe (bag : Listeners) : String :=
  "Events \x7b listeners: [" ++ ", ".intercalate bag.labels ++ "] \x7d"

/-- A description with one line for each registration. -/
def describeLines (bag : Listeners) : String :=
  let listed :=
    if bag.isEmpty then "[]"
    else "[\n" ++ String.join (bag.labels.map fun l => "        " ++ l ++ ",\n") ++ "    ]"
  "Events \x7b\n    listeners: " ++ listed ++ ",\n\x7d"

end Listeners

end Widgetry
