import Widgetry.Json.Value

/-!
# Records in JSON texts

A record is read from an object, whose keys may come in any order, or from a list of its fields in
their own order. While it is read, its fields are collected in a draft; fields that were not given
are made up for when the draft is finished.
-/

namespace Widgetry.Json

/-- A field of a record whose draft has type `σ`. -/
structure Field (σ : Type) where
  name : String
  /-- Whether it must be given. -/
  required : Bool
  /-- Whether the draft has it already. -/
  given : σ → Bool
  /-- Reads its value into the draft, at a depth. -/
  read : Nat → σ → Reader σ

/-- How to read a record of type `α` through a draft of type `σ`. -/
structure Record (σ α : Type) where
  name : String
  fields : List (Field σ)
  blank : σ
  /-- The record of a draft, or the first field that is missing. -/
  complete : σ → Except String α

namespace Record

variable {σ α : Type}

/-- The field with a given key. -/
def field? (r : Record σ α) (key : String) : Option (Field σ) := r.fields.find? (·.name == key)

/-- Reads the members of an object into a draft, up to its brace. Unknown ones are passed over. -/
def membersInto (r : Record σ α) (depth : Nat) : Nat → Bool → σ → Reader σ
  | 0, _, _ => Reader.failNext .endInObject
  | fuel + 1, first, draft => do
    match ← Reader.nextKey first with
    | none => return draft
    | some key =>
      match r.field? key with
      | some f =>
        if f.given draft then Reader.failLater (.duplicateField key)
        else
          Reader.colon
          let draft ← f.read depth draft
          membersInto r depth fuel false draft
      | none =>
        Reader.colon
        Reader.passValue
        membersInto r depth fuel false draft

/-- What a list of the fields should be. -/
def expectation (r : Record σ α) : String :=
  "struct " ++ r.name ++ " with " ++ toString r.fields.length ++ " elements"

/-- Reads the elements of a list into the fields of a draft, from the field with an index on.
Fields that must be given may not be left out at the end. -/
def elementsInto (r : Record σ α) (depth : Nat) : Nat → List (Field σ) → Bool → σ → Reader σ
  | _, [], _, draft => return draft
  | index, f :: fields, first, draft => do
    if ← Reader.hasElement first then
      let draft ← f.read depth draft
      elementsInto r depth (index + 1) fields false draft
    else if f.required then Reader.failLater (.invalidLength index r.expectation)
    else elementsInto r depth (index + 1) fields first draft

/-- The record of a draft. -/
def finish (r : Record σ α) (draft : σ) : Reader α :=
  match r.complete draft with
  | .ok a => return a
  | .error name => Reader.failLater (.missingField name)

/-- Reads a record. -/
def read (r : Record σ α) (depth : Nat) : Reader α :=
  Reader.settled do
    match ← Reader.peek with
    | none => Reader.failNext .endInValue
    | some '[' =>
      Reader.enter depth
      Reader.closedBy
        (do r.finish (← r.elementsInto (depth - 1) 0 r.fields true r.blank)) Reader.closeList
    | some '\x7b' =>
      Reader.enter depth
      Reader.closedBy
        (do r.finish (← r.membersInto (depth - 1) (← Reader.fuel) true r.blank)) Reader.closeObject
    | some _ => Reader.mismatch ("struct " ++ r.name)

end Record

end Widgetry.Json
