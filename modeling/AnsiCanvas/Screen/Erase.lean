import AnsiCanvas.Screen.Basic

/-! # Erasing

Erased cells are blank and have the plain pen, whatever pen is in use.  Erasing
never changes the size of the screen.
-/

namespace AnsiCanvas

inductive LineErase
  | toEnd
  /-- From the start of the row through the cursor. -/
  | toStart
  | all
  deriving DecidableEq, Repr

inductive DisplayErase
  | toEnd
  /-- From the start of the screen through the cursor. -/
  | toStart
  /-- The whole screen, the cursor going home. -/
  | all
  /-- The whole screen, the cursor staying. -/
  | scrollback
  deriving DecidableEq, Repr

variable {width : Nat}

/-- The row with part of it erased, as seen from a column counted from zero. -/
def Row.erase (row : Row width) (column : Nat) : LineErase → Row width
  | .toEnd => row.clearRange column width
  | .toStart => row.clearRange 0 (column + 1)
  | .all => .blank width

namespace Screen

def eraseToEnd (screen : Screen width) (position : Position) : Screen width :=
  ⟨screen.rows.mapIdx fun index row =>
    if index < position.rowIndex then row
    else if index = position.rowIndex then row.erase position.columnIndex .toEnd
    else .blank width⟩

def eraseToStart (screen : Screen width) (position : Position) : Screen width :=
  ⟨screen.rows.mapIdx fun index row =>
    if index < position.rowIndex then .blank width
    else if index = position.rowIndex then row.erase position.columnIndex .toStart
    else row⟩

def eraseAll (screen : Screen width) : Screen width :=
  ⟨Array.replicate screen.height (.blank width)⟩

/-- Erases part of the row of a position, if it is on the screen. -/
def eraseLine (screen : Screen width) (position : Position) (extent : LineErase) : Screen width :=
  screen.modifyRow position.rowIndex (·.erase position.columnIndex extent)

@[simp] theorem height_eraseToEnd (screen : Screen width) (position : Position) :
    (screen.eraseToEnd position).height = screen.height := by
  simp [eraseToEnd, height]

@[simp] theorem height_eraseToStart (screen : Screen width) (position : Position) :
    (screen.eraseToStart position).height = screen.height := by
  simp [eraseToStart, height]

@[simp] theorem height_eraseAll (screen : Screen width) : screen.eraseAll.height = screen.height := by
  simp [eraseAll, height]

@[simp] theorem height_eraseLine (screen : Screen width) (position : Position)
    (extent : LineErase) : (screen.eraseLine position extent).height = screen.height := by
  simp [eraseLine]

end Screen

end AnsiCanvas
