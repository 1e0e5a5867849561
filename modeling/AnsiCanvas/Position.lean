import AnsiCanvas.Count
import AnsiCanvas.Pen.Basic

/-! # Positions

A place is addressed by column and row, both counted from one.  Coordinates may
lie beyond the canvas.  Reading order turns a position into an address, and the
position after another is found by adding one to that address.
-/

namespace AnsiCanvas

structure Position where
  column : Nat := 1
  row : Nat := 1
  deriving DecidableEq, Repr

inductive PositionError
  | zero (column row : Nat)
  | beyondWidth (column row width : Nat)
  deriving DecidableEq, Repr

def PositionError.message : PositionError → String
  | zero column row => "bad position " ++ column.repr ++ ", " ++ row.repr
  | beyondWidth column row width =>
    "position " ++ column.repr ++ ", " ++ row.repr ++ " exceeds column width " ++ width.repr

namespace Position

def home : Position := {}

instance : Inhabited Position := ⟨home⟩

/-- The position with the given coordinates, a zero counting as one. -/
def ofCoordinates (column row : Nat) : Position := ⟨max column 1, max row 1⟩

/-- The column counted from zero.  A column of zero counts as one. -/
def columnIndex (position : Position) : Nat := position.column - 1

def rowIndex (position : Position) : Nat := position.row - 1

def carriageReturn (position : Position) : Position := { position with column := 1 }

def fault? (position : Position) (width : Nat) : Option PositionError :=
  if position.column = 0 ∨ position.row = 0 then
    some (.zero position.column position.row)
  else if width < position.column then
    some (.beyondWidth position.column position.row width)
  else
    none

/-- The next position in reading order, if there is a row for it.  A column beyond the
    width counts on into the rows below. -/
def next? (position : Position) (width : Nat) : Option Position :=
  -- Far away positions share the largest address, and still come out within the width.  Only the
  -- address is held there: one column wide, the row that follows from it is no count.
  let address := Count.add (Count.add (Count.mul position.rowIndex width) position.columnIndex) 1
  (Count.sum? (address / width) 1).map fun row => ⟨address % width + 1, row⟩

/-- The position moved up to row `limit` if it lies below, together with the row
    it had then.  A limit of zero is none. -/
def limited (position : Position) (limit : Nat) : Position × Option Nat :=
  if 0 < limit ∧ limit < position.row then
    ({ position with row := limit }, some position.row)
  else
    (position, none)

/-- A coordinate after a motion, held between one and the size of the canvas. -/
def shift (coordinate : Nat) (offset : Int) (size : Nat) : Nat :=
  let moved :=
    if offset < 0 then coordinate - offset.natAbs else Count.add coordinate offset.natAbs
  max 1 (min moved (max size 1))

end Position

inductive Direction
  | up
  | down
  | forward
  | back
  deriving DecidableEq, Repr

/-- The change of column and row by a motion of `amount` cells.  Amounts are signed
    64-bit from here on, and larger ones count as the largest. -/
def Direction.offset (direction : Direction) (amount : Nat) : Int × Int :=
  let distance : Int := min amount 0x7FFFFFFFFFFFFFFF
  match direction with
  | up => (0, -distance)
  | down => (0, distance)
  | forward => (distance, 0)
  | back => (-distance, 0)

structure SavedCursor where
  position : Position := {}
  pen : Pen := {}
  deriving DecidableEq, Repr

end AnsiCanvas
