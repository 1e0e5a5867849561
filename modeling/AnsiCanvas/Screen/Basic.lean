import AnsiCanvas.Row
import AnsiCanvas.Position

/-! # The screen

A grid of fixed width whose height grows on demand.  Rows are only ever added at
the bottom: drawing on a row and positioning onto it make it exist, relative
motion stays on the rows there are.  `Screen.cell?` is the view in which the
operations are described.
-/

namespace AnsiCanvas

structure Screen (width : Nat) where
  rows : Array (Row width)
  deriving DecidableEq

namespace Screen

variable {width : Nat}

def blank (width : Nat) : Screen width := ⟨#[.blank width]⟩

instance : Inhabited (Screen width) := ⟨blank width⟩

def height (screen : Screen width) : Nat := screen.rows.size

/-- A row by its number, counted from one. -/
def row? (screen : Screen width) (number : Nat) : Option (Row width) :=
  if number = 0 then none else screen.rows[number - 1]?

def cell? (screen : Screen width) (position : Position) : Option Cell :=
  if position.column = 0 then none
  else (screen.row? position.row).bind (·.cell? position.columnIndex)

/-- The screen grown by blank rows until row `number` exists. -/
def touch (screen : Screen width) (number : Nat) : Screen width :=
  if screen.rows.size < number then
    ⟨screen.rows ++ Array.replicate (number - screen.rows.size) (.blank width)⟩
  else
    screen

/-- The screen with one row changed, if it exists; rows count from zero. -/
def modifyRow (screen : Screen width) (index : Nat) (change : Row width → Row width) :
    Screen width :=
  ⟨screen.rows.modify index change⟩

/-- The screen with a cell replaced, after growing down to its row.  The position
    is taken to be one that can be drawn on. -/
def write (screen : Screen width) (position : Position) (cell : Cell) : Screen width :=
  (screen.touch position.row).modifyRow position.rowIndex (·.set position.columnIndex cell)

/-- Draws a character with a pen, or says why that is not possible; the screen is
    unchanged then. -/
def put (screen : Screen width) (position : Position) (character : Char) (pen : Pen) :
    Screen width × Option PositionError :=
  match position.fault? width with
  | some fault => (screen, some fault)
  | none => (screen.write position (.draw character pen), none)

/-- The position after a relative motion, which never leaves the screen. -/
def move (screen : Screen width) (position : Position) (right down : Int) : Position :=
  ⟨Position.shift position.column right width, Position.shift position.row down screen.height⟩

def moveTo (screen : Screen width) (column row : Nat) : Screen width × Position :=
  let position := Position.ofCoordinates column row
  (screen.touch position.row, position)

/-- Goes on to the next position in reading order, if there is one, held at row `limit`,
    and grows down to it.  When it was held, the row it was on its way to is given too. -/
def advance? (screen : Screen width) (position : Position) (limit : Nat) :
    Option (Screen width × Position × Option Nat) :=
  (position.next? width).map fun next =>
    let (position, exceeded) := next.limited limit
    (screen.touch position.row, position, exceeded)

@[simp] theorem height_blank : (blank width).height = 1 := rfl

@[simp] theorem height_touch (screen : Screen width) (number : Nat) :
    (screen.touch number).height = max screen.height number := by
  unfold touch height
  split
  · rw [Array.size_append, Array.size_replicate]
    omega
  · omega

@[simp] theorem height_modifyRow (screen : Screen width) (index : Nat)
    (change : Row width → Row width) :
    (screen.modifyRow index change).height = screen.height := by
  simp [modifyRow, height]

@[simp] theorem height_write (screen : Screen width) (position : Position) (cell : Cell) :
    (screen.write position cell).height = max screen.height position.row := by
  simp [write]

/-- Old rows stay and new ones are blank. -/
theorem getElem?_rows_touch (screen : Screen width) (number index : Nat) :
    (screen.touch number).rows[index]?
      = if index < screen.height then screen.rows[index]?
        else if index < number then some (.blank width) else none := by
  unfold touch height
  split
  · rw [Array.getElem?_append]
    split
    · rfl
    · rw [Array.getElem?_replicate]
      split <;> split <;> first | rfl | omega
  · split
    · rfl
    · rw [Array.getElem?_eq_none (by omega), if_neg (by omega)]

theorem getElem?_rows_modifyRow (screen : Screen width) (index : Nat)
    (change : Row width → Row width) (other : Nat) :
    (screen.modifyRow index change).rows[other]?
      = if index = other then screen.rows[other]?.map change else screen.rows[other]? := by
  simp [modifyRow, Array.getElem?_modify]

end Screen

end AnsiCanvas
