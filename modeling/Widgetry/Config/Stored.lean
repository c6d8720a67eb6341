import Widgetry.Config.Basic
import Widgetry.Stored

/-!
# Stored configurations

Every part of a configuration may be left out and then has its standard value, except the place
and size of a rectangle. Colors that a rectangle does not set are not written.
-/

namespace Widgetry

open Json (Codec Document Field Reader Record)

namespace WindowConfig

structure Draft where
  title : Option String := none
  width : Option UInt32 := none
  height : Option UInt32 := none

def Draft.window (d : Draft) : WindowConfig :=
  let standard : WindowConfig := {}
  ⟨d.title.getD standard.title, d.width.getD standard.width, d.height.getD standard.height⟩

def record : Record Draft WindowConfig where
  name := "WindowConfig"
  fields := [
    .of "title" false Draft.title fun d v => { d with title := some v },
    .of "width" false Draft.width fun d v => { d with width := some v },
    .of "height" false Draft.height fun d v => { d with height := some v }]
  blank := {}
  complete d := .ok d.window

instance : Codec WindowConfig where
  read := record.read
  write w := .object [
    ("title", Codec.write w.title), ("width", Codec.write w.width), ("height", Codec.write w.height)]

end WindowConfig

namespace RectSpec

structure Draft where
  x : Option Float32 := none
  y : Option Float32 := none
  width : Option UInt32 := none
  height : Option UInt32 := none
  color : Option (Option Color) := none
  hoverColor : Option (Option Color) := none
  focusColor : Option (Option Color) := none

def Draft.spec (d : Draft) : Except String RectSpec := do
  let x ← Json.demand "x" d.x
  let y ← Json.demand "y" d.y
  let width ← Json.demand "width" d.width
  let height ← Json.demand "height" d.height
  return ⟨x, y, width, height, d.color.join, d.hoverColor.join, d.focusColor.join⟩

def record : Record Draft RectSpec where
  name := "RectSpec"
  fields := [
    .of "x" true Draft.x fun d v => { d with x := some v },
    .of "y" true Draft.y fun d v => { d with y := some v },
    .of "width" true Draft.width fun d v => { d with width := some v },
    .of "height" true Draft.height fun d v => { d with height := some v },
    .of "color" false Draft.color fun d v => { d with color := some v },
    .of "hover_color" false Draft.hoverColor fun d v => { d with hoverColor := some v },
    .of "focus_color" false Draft.focusColor fun d v => { d with focusColor := some v }]
  blank := {}
  complete := Draft.spec

/-- The member for a color, if it is set. -/
def colorMember (key : String) (c : Option Color) : List (String × Document) :=
  (c.map fun c => (key, Codec.write c)).toList

instance : Codec RectSpec where
  read := record.read
  write s := .object (
    [("x", Codec.write s.x), ("y", Codec.write s.y),
      ("width", Codec.write s.width), ("height", Codec.write s.height)]
    ++ colorMember "color" s.color
    ++ colorMember "hover_color" s.hoverColor
    ++ colorMember "focus_color" s.focusColor)

end RectSpec

namespace Config

structure Draft where
  window : Option WindowConfig := none
  clearColor : Option Color := none
  rectangles : Option (List RectSpec) := none

def Draft.config (d : Draft) : Config where
  window := d.window.getD standard.window
  clearColor := d.clearColor.getD standard.clearColor
  rectangles := d.rectangles.getD standard.rectangles

def record : Record Draft Config where
  name := "ToolkitConfig"
  fields := [
    .of "window" false Draft.window fun d v => { d with window := some v },
    .of "clear_color" false Draft.clearColor fun d v => { d with clearColor := some v },
    .of "rectangles" false Draft.rectangles fun d v => { d with rectangles := some v }]
  blank := {}
  complete d := .ok d.config

instance : Codec Config where
  read := record.read
  write c := .object [
    ("window", Codec.write c.window), ("clear_color", Codec.write c.clearColor),
    ("rectangles", Codec.write c.rectangles)]

/-- Reads a configuration and validates it. -/
def ofJson (text : String) : Except Error Config := do
  let c : Config ← (Json.parse text).mapError .json
  c.validate
  return c

/-- The text that is saved. -/
def toJson (c : Config) : String := Json.pretty c

end Config

end Widgetry
