import AnsiCanvas.Screen.Basic
import AnsiCanvas.Pen.Escape
import AnsiCanvas.Outlet

/-! # Rendering

A screen is written row by row.  Each row stands between two resets and ends with a
newline; in between, every cell is an escape, if its pen shows differently from the
one before, and a glyph.  A row may have a budget of bytes for its escapes and
glyphs: the first that does not fit ends them, while the frame is always complete.
-/

namespace AnsiCanvas

/-- What the first cell of a row is compared with. -/
inductive Baseline
  /-- Nothing: its escape says all. -/
  | resetPerRow
  /-- The last cell reached in the row above.  As rows begin with a reset, a row
      that starts with the same pen shows the terminal's own attributes. -/
  | carryAcrossRows
  deriving DecidableEq, Repr

structure RenderOptions where
  /-- The most bytes that the escapes and glyphs of a row may take; zero for any
      number. -/
  rowBudget : Nat := 0
  /-- Rows begin with their number and end with a bar. -/
  numberRows : Bool := false
  baseline : Baseline := .resetPerRow
  escapes : EscapeOptions := {}
  deriving DecidableEq, Repr

def RenderOptions.fits (options : RenderOptions) (used size : Nat) : Bool :=
  options.rowBudget == 0 || decide (used + size ≤ options.rowBudget)

open Outlet (Writing write)

variable {width : Nat}

namespace Row

/-- A row's number, right-aligned in five columns. -/
def label (number : Nat) : String :=
  let digits := number.repr
  "".pushn ' ' (5 - digits.length) ++ digits ++ ": "

/-- Writes cells from left to right while they fit, `used` bytes of the budget being
    gone.  The pen of the last cell reached is what the next is compared with, also
    if that cell no longer fits. -/
def writeCells (options : RenderOptions) : List Cell → Option Pen → Nat → Writing (Option Pen)
  | [], before, _ => pure before
  | cell :: rest, before, used => do
    let escape := cell.pen.escape before options.escapes
    let glyph := cell.glyph.toString
    let withEscape := used + escape.utf8ByteSize
    if options.fits used escape.utf8ByteSize then
      write escape
      if options.fits withEscape glyph.utf8ByteSize then
        write glyph
        writeCells options rest (some cell.pen) (withEscape + glyph.utf8ByteSize)
      else
        -- The escape stays, though its glyph does not fit.
        pure (some cell.pen)
    else
      pure (some cell.pen)

/-- Writes a row with its frame, and gives the pen that the next row may continue
    from. -/
def writeTo (options : RenderOptions) (number : Nat) (row : Row width) (before : Option Pen) :
    Writing (Option Pen) := do
  write resetEscape
  if options.numberRows then write (label number)
  let start := match options.baseline with
    | .resetPerRow => none
    | .carryAcrossRows => before
  let after ← writeCells options row.cells.toList start 0
  write resetEscape
  if options.numberRows then write "|"
  write "\n"
  pure after

end Row

namespace Screen

def writeRows (options : RenderOptions) : Nat → List (Row width) → Option Pen → Writing Unit
  | _, [], _ => pure ()
  | number, row :: rest, before => do
    let after ← row.writeTo options number before
    writeRows options (number + 1) rest after

def writeTo (options : RenderOptions) (screen : Screen width) : Writing Unit :=
  writeRows options 1 screen.rows.toList none

def render (options : RenderOptions) (screen : Screen width) : String :=
  (Outlet.collect (screen.writeTo options)).text

end Screen

end AnsiCanvas
