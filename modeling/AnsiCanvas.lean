import AnsiCanvas.Converter
import AnsiCanvas.CommandLine.Program
import AnsiCanvas.Main
import AnsiCanvas.Proofs.Escape.Numeral
import AnsiCanvas.Proofs.Text.Ascii
import AnsiCanvas.Proofs.Escape.Written
import AnsiCanvas.Proofs.Pen.Appearance
import AnsiCanvas.Proofs.Pen.Display
import AnsiCanvas.Proofs.Pen.ReadBack
import AnsiCanvas.Proofs.Outlet
import AnsiCanvas.Proofs.Screen.Pieces
import AnsiCanvas.Proofs.Screen.Replay
import AnsiCanvas.Proofs.Canvas.Strokes
import AnsiCanvas.Proofs.Escape.Range
import AnsiCanvas.Proofs.Canvas.Bounds
import AnsiCanvas.Proofs.Scan.Bounds
import AnsiCanvas.Proofs.Scan.Picture
import AnsiCanvas.Proofs.Escape.Segment
import AnsiCanvas.Proofs.Escape.Codec
import AnsiCanvas.Proofs.Escape.Saturation
import AnsiCanvas.Proofs.Screen.Grammar
import AnsiCanvas.Proofs.Scan.Output
import AnsiCanvas.Proofs.Scan.Later
import AnsiCanvas.Proofs.Scan.Sequence
import AnsiCanvas.Proofs.Scan.Conversion
import AnsiCanvas.Proofs.Scan.Inert
import AnsiCanvas.Proofs.Scan.Ending
import AnsiCanvas.Proofs.Scan.Lockstep
import AnsiCanvas.Proofs.Scan.Notices
import AnsiCanvas.Proofs.Scan.Strict
import AnsiCanvas.Proofs.Scan.Unhandled
import AnsiCanvas.Proofs.Canvas.Limit
import AnsiCanvas.Proofs.Scan.Limit
import AnsiCanvas.Proofs.Scan.Stopping
import AnsiCanvas.Proofs.Scan.Room
import AnsiCanvas.Proofs.Canvas.Findings
import AnsiCanvas.Proofs.Scan.Findings
import AnsiCanvas.Proofs.Pen.Codes
import AnsiCanvas.Proofs.Pen.Effective
import AnsiCanvas.Proofs.Screen.Effective
import AnsiCanvas.Proofs.Screen.Reread
import AnsiCanvas.Proofs.Screen.Budget
import AnsiCanvas.Proofs.Screen.Carry
import AnsiCanvas.Proofs.Screen.OneRow
import AnsiCanvas.Proofs.Screen.Erasing
import AnsiCanvas.Proofs.Screen.Growth
import AnsiCanvas.Proofs.Screen.Advance
import AnsiCanvas.Proofs.Scan.Onward
import AnsiCanvas.Proofs.Scan.Canonical
import AnsiCanvas.Proofs.CommandLine.Program
import AnsiCanvas.Proofs.Json.Token
import AnsiCanvas.Proofs.Json.Object
import AnsiCanvas.Proofs.Settings.File
import AnsiCanvas.Proofs.CommandLine.Layers
import AnsiCanvas.Proofs.Scan.Motion
import AnsiCanvas.Proofs.Scan.Restore
import AnsiCanvas.Proofs.Scan.Exchange
import AnsiCanvas.Proofs.Pen.Irredundant
import AnsiCanvas.Proofs.Screen.Sparing
import AnsiCanvas.Proofs.Screen.Lines
import AnsiCanvas.Proofs.Scan.PlainText
