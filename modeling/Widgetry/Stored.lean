import Widgetry.Event
import Widgetry.Json.Codec
import Widgetry.Quad

/-!
# Stored forms

How points, viewports, colors, kinds of events and identifiers are written in JSON texts and read
from them.
-/

namespace Widgetry

open Json (Codec Document Field Reader Record)

namespace Point

structure Draft where
  x : Option Float32 := none
  y : Option Float32 := none

def record : Record Draft Point where
  name := "Point"
  fields := [
    .of "x" true Draft.x fun d v => { d with x := some v },
    .of "y" true Draft.y fun d v => { d with y := some v }]
  blank := {}
  complete d := do
    let x ← Json.demand "x" d.x
    let y ← Json.demand "y" d.y
    return ⟨x, y⟩

instance : Codec Point where
  read := record.read
  write p := .object [("x", Codec.write p.x), ("y", Codec.write p.y)]

end Point

namespace Viewport

structure Draft where
  width : Option UInt32 := none
  height : Option UInt32 := none

def record : Record Draft Viewport where
  name := "Viewport"
  fields := [
    .of "width" true Draft.width fun d v => { d with width := some v },
    .of "height" true Draft.height fun d v => { d with height := some v }]
  blank := {}
  complete d := do
    let width ← Json.demand "width" d.width
    let height ← Json.demand "height" d.height
    return ⟨width, height⟩

instance : Codec Viewport where
  read := record.read
  write v := .object [("width", Codec.write v.width), ("height", Codec.write v.height)]

end Viewport

namespace Color

/-- The stored form that a value has, if it has one. -/
def Form.ofJson? : Json → Option Form
  | .string s => some (.text s)
  | .list [.number r, .number g, .number b, .number a] =>
    some (.channels (Color.pattern ⟨r.toFloat32, g.toFloat32, b.toFloat32, a.toFloat32⟩))
  | _ => none

/-- The color that a value stands for. -/
def ofJson (j : Json) : Except Json.Problem Color :=
  match Form.ofJson? j with
  | some form =>
    match form.color with
    | .ok c => .ok c
    | .error e => .error (.rejected e.message)
  | none => .error (.rejected "data did not match any variant of untagged enum ColorRepr")

/-- Reads a color; the value is read completely before it is looked at. -/
def read (depth : Nat) : Reader Color := do
  match ofJson (← Reader.value depth) with
  | .ok c => return c
  | .error p => Reader.failLater p

def Form.document : Form → Document
  | .text hex => .string hex
  | .channels p => .list ([p.color.r, p.color.g, p.color.b, p.color.a].map Document.single)

instance : Codec Color := ⟨read, fun c => c.form.document⟩

end Color

namespace EventKind

/-- Reads the name of a kind. -/
def readName : Reader EventKind :=
  Reader.stringThen "variant identifier" fun s =>
    match ofName? s with
    | some kind => return kind
    | none => Reader.failLater (.unknownVariant s (all.map name))

/-- Reads `null`, the only value that may follow the name of a kind. -/
def readNothing : Reader Unit := do
  match ← Reader.peek with
  | none => Reader.failNext .endInValue
  | some 'n' =>
    Reader.advance
    Reader.word ['u', 'l', 'l']
  | some _ => Reader.mismatch "unit"

/-- Reads the name of a kind, or an object with that name as its only key. -/
def read (depth : Nat) : Reader EventKind := do
  match ← Reader.peek with
  | none => Reader.failNext .endInValue
  | some '"' => readName
  | some '\x7b' =>
    Reader.enter depth
    match ← Reader.peek with
    | none => Reader.failNext .endInValue
    | some '"' =>
      let kind ← readName
      Reader.colon
      readNothing
      match ← Reader.peek with
      | some '\x7d' =>
        Reader.advance
        return kind
      | some _ => Reader.failHere .expectedValue
      | none => Reader.failHere .endInObject
    | some _ => Reader.failNext .expectedValue
  | some _ => Reader.failNext .expectedValue

instance : Codec EventKind := ⟨read, fun k => .string k.name⟩

end EventKind

namespace RectId

/-- Reads an identifier. -/
def read : Reader RectId :=
  Reader.stringThen "a formatted UUID string" fun s =>
    match parse s with
    | .ok id => return id
    | .error e => Reader.failLater (.rejected ("UUID parsing failed: " ++ e.message))

instance : Codec RectId := ⟨fun _ => read, fun id => .string id.text⟩

end RectId

end Widgetry
