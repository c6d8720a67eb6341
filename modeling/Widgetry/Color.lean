import Widgetry.Number.Binary
import Widgetry.Text.Blank
import Widgetry.Text.Hex
import Widgetry.Text.Quoted
import Widgetry.Text.Slice

/-!
# Colors

A color has four channels, nominally between `0` and `1`. Its hexadecimal text holds one byte per
channel and leaves out a full alpha. `Color.Pattern.form` says how a color is stored: as text when
the text stands for exactly that color, and as four numbers otherwise.
-/

namespace Widgetry

/-- Red, green, blue and alpha. -/
structure Color where
  r : Float32
  g : Float32
  b : Float32
  a : Float32
  deriving BEq

namespace Color

/-- A color that covers what is behind it. -/
def rgb (r g b : Float32) : Color := ⟨r, g, b, 1⟩

def black : Color := rgb 0 0 0

def transparent : Color := ⟨0, 0, 0, 0⟩

/-- The fill of a rectangle that asks for none. -/
def standardFill : Color := rgb 0.9 0.9 0.9

/-- The color with `amount` of its light taken away; alpha stays. -/
def darken (c : Color) (amount : Float32) : Color :=
  let keep := Number.clamp (1 - amount) 0 1
  ⟨c.r * keep, c.g * keep, c.b * keep, c.a⟩

/-- A text that is no color. -/
structure Malformed where
  text : String
  deriving DecidableEq, Repr

def Malformed.message (e : Malformed) : String :=
  "invalid color " ++ Text.quoted e.text ++ ": expected #rrggbb or #rrggbbaa"

/-- A text without the mark that may stand before the digits. -/
def dropMark : List Char → List Char
  | '#' :: digits => digits
  | digits => digits

/-- The digits in a text: blanks around them and a mark before them do not count. -/
def digits (s : String) : List Char := dropMark (Text.trim s.toList)

/-- The bytes that pairs of hexadecimal digits stand for. -/
def bytes? : List Char → Option (List UInt8)
  | [] => some []
  | [_] => none
  | high :: low :: rest => do
    let h ← Text.hexValue? high
    let l ← Text.hexValue? low
    let bytes ← bytes? rest
    return (16 * h + l).toUInt8 :: bytes

/-- The channel that a byte stands for. -/
def channel (byte : UInt8) : Float32 := byte.toFloat32 / 255

/-- What can stop the reading of digits: their size or another character among them, a pair of
bytes that is not made of whole characters of the text, or a pair that is no number. -/
inductive Obstacle where
  | shape
  | bounds
  | number
  deriving DecidableEq, Repr

/-- The channel whose pair of digits starts at a byte offset. -/
def channelAt (digits : List Char) (offset : Nat) : Except Obstacle Float32 :=
  match Text.slice? offset 2 digits with
  | none => .error .bounds
  | some pair =>
    match Text.byteOfHex? pair with
    | none => .error .number
    | some byte => .ok (channel byte)

/-- Reads six or eight hexadecimal digits. Without the last two the color is opaque. -/
def ofDigits (digits : List Char) : Except Obstacle Color :=
  let size := Text.byteSize digits
  if (size = 6 ∨ size = 8) ∧ digits.all Text.isHexDigit then do
    let a ← if size = 8 then channelAt digits 6 else pure 1
    return ⟨← channelAt digits 0, ← channelAt digits 2, ← channelAt digits 4, a⟩
  else .error .shape

/-- Reads the digits in a text. Whatever stops the reading, the text as a whole is reported. -/
def ofHex (s : String) : Except Malformed Color := (ofDigits (digits s)).mapError fun _ => ⟨s⟩

/-- The byte nearest to a channel. -/
def quantize (v : Float32) : UInt8 := Number.toByte (Number.clamp v 0 1 * 255)

/-- The hexadecimal text of the nearest color that has one. -/
def toHex (c : Color) : String :=
  let alpha := quantize c.a
  let shades := [c.r, c.g, c.b].flatMap fun v => Text.hexByte (quantize v)
  String.ofList ('#' :: shades ++ if alpha = 255 then [] else Text.hexByte alpha)

/-- The bits of the channels of a color. There are many patterns for what is no number, and as
numbers they are all the same. -/
structure Pattern where
  r : UInt32
  g : UInt32
  b : UInt32
  a : UInt32
  deriving DecidableEq, Repr

def pattern (c : Color) : Pattern := ⟨c.r.toBits, c.g.toBits, c.b.toBits, c.a.toBits⟩

def Pattern.color (p : Pattern) : Color where
  r := Float32.ofBits p.r
  g := Float32.ofBits p.g
  b := Float32.ofBits p.b
  a := Float32.ofBits p.a

/-- The stored form of a color. -/
inductive Form where
  | text (hex : String)
  | channels (p : Pattern)
  deriving DecidableEq, Repr

/-- Whether the hexadecimal text of a color stands for that color. -/
def hasExactHex (c : Color) : Bool :=
  match ofHex c.toHex with
  | .ok d => d == c
  | .error _ => false

/-- Text when it is exact, channels otherwise. -/
def Pattern.form (p : Pattern) : Form :=
  if p.color.hasExactHex then .text p.color.toHex else .channels p

def form (c : Color) : Form := c.pattern.form

/-- The bits that a stored form stands for. -/
def Form.pattern : Form → Except Malformed Pattern
  | .text hex => (ofHex hex).map Color.pattern
  | .channels p => .ok p

/-- The color that a stored form stands for. -/
def Form.color (f : Form) : Except Malformed Color := f.pattern.map Pattern.color

end Color

end Widgetry
