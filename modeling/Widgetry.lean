import Widgetry.App.Basic
import Widgetry.App.Input
import Widgetry.App.Program
import Widgetry.Color
import Widgetry.Config.Basic
import Widgetry.Config.File
import Widgetry.Config.Stored
import Widgetry.Disk
import Widgetry.Event
import Widgetry.Geometry
import Widgetry.Gpu.Call
import Widgetry.Gpu.Capacity
import Widgetry.Gpu.Display
import Widgetry.Gpu.Instance
import Widgetry.Gpu.Painter
import Widgetry.Gpu.Shader
import Widgetry.Json.Codec
import Widgetry.Json.Document
import Widgetry.Json.Fault
import Widgetry.Json.Numeral
import Widgetry.Json.Quote
import Widgetry.Json.Reader
import Widgetry.Json.Record
import Widgetry.Json.Value
import Widgetry.Log
import Widgetry.Main
import Widgetry.Number.Binary
import Widgetry.Number.Layout
import Widgetry.Number.Shortest
import Widgetry.Pointer
import Widgetry.Proofs.Answers
import Widgetry.Proofs.Bags
import Widgetry.Proofs.Bits
import Widgetry.Proofs.Buffer
import Widgetry.Proofs.Building
import Widgetry.Proofs.Capacity
import Widgetry.Proofs.Click
import Widgetry.Proofs.Coherence
import Widgetry.Proofs.Custody
import Widgetry.Proofs.Documents
import Widgetry.Proofs.Doubles
import Widgetry.Proofs.Flagged
import Widgetry.Proofs.Frame
import Widgetry.Proofs.Frames
import Widgetry.Proofs.Handover
import Widgetry.Proofs.Hexadecimal
import Widgetry.Proofs.Independence
import Widgetry.Proofs.Ledger
import Widgetry.Proofs.Marked
import Widgetry.Proofs.Narrowing
import Widgetry.Proofs.Numerals
import Widgetry.Proofs.Picture
import Widgetry.Proofs.Quotes
import Widgetry.Proofs.Reading
import Widgetry.Proofs.Redraw
import Widgetry.Proofs.Reload
import Widgetry.Proofs.Removal
import Widgetry.Proofs.Reread
import Widgetry.Proofs.Rounding
import Widgetry.Proofs.Run
import Widgetry.Proofs.Separation
import Widgetry.Proofs.Shades
import Widgetry.Proofs.Shortest
import Widgetry.Proofs.Singles
import Widgetry.Proofs.Sizes
import Widgetry.Proofs.Topmost
import Widgetry.Proofs.Whereabouts
import Widgetry.Quad
import Widgetry.RectId
import Widgetry.Rectangle
import Widgetry.Scene
import Widgetry.Stored
import Widgetry.Text.Blank
import Widgetry.Text.Hex
import Widgetry.Text.Quoted
import Widgetry.Text.Slice
import Widgetry.Text.Unprintable
import Widgetry.Proofs.Grammar
import Widgetry.Proofs.Passing
import Widgetry.Proofs.Steady
import Widgetry.Proofs.Filling
import Widgetry.Proofs.Defaults
