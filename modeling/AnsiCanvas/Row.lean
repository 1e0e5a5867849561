import AnsiCanvas.Cell
import AnsiCanvas.Text.Blank

/-! # Rows

A row is as many cells as the canvas is wide.  Columns count from zero here;
`getElem?` on the cells is the view in which each operation is described.
-/

namespace AnsiCanvas

structure Row (width : Nat) where
  cells : Vector Cell width
  deriving DecidableEq

namespace Row

variable {width : Nat}

def blank (width : Nat) : Row width := ⟨Vector.replicate width .blank⟩

instance : Inhabited (Row width) := ⟨blank width⟩

def cell? (row : Row width) (column : Nat) : Option Cell := row.cells[column]?

/-- The row with another cell in a column.  Nothing changes beyond the width. -/
def set (row : Row width) (column : Nat) (cell : Cell) : Row width :=
  ⟨row.cells.setIfInBounds column cell⟩

/-- The row with the columns from `start` up to, not including, `stop` blank. -/
def clearRange (row : Row width) (start stop : Nat) : Row width :=
  ⟨row.cells.mapIdx fun column cell => if start ≤ column ∧ column < stop then .blank else cell⟩

def isBlank (row : Row width) : Bool := row.cells.all (· == .blank)

/-- The glyphs of the row without the blanks at the end. -/
def text (row : Row width) : String :=
  String.ofList (Text.trimEnd (row.cells.toList.map Cell.glyph))

@[simp] theorem cell?_blank (column : Nat) :
    (blank width).cell? column = if column < width then some .blank else none := by
  simp [blank, cell?, Vector.getElem?_replicate]

theorem cell?_set (row : Row width) (column other : Nat) (cell : Cell) :
    (row.set column cell).cell? other
      = if column = other then (if column < width then some cell else none)
        else row.cell? other := by
  simp [set, cell?, Vector.getElem?_setIfInBounds]

theorem cell?_clearRange (row : Row width) (start stop column : Nat) :
    (row.clearRange start stop).cell? column
      = (row.cell? column).map fun cell =>
          if start ≤ column ∧ column < stop then .blank else cell := by
  simp [clearRange, cell?, Vector.getElem?_mapIdx]

theorem ext_cell? {a b : Row width} (h : ∀ column, a.cell? column = b.cell? column) : a = b := by
  obtain ⟨a⟩ := a
  obtain ⟨b⟩ := b
  congr 1
  apply Vector.ext
  intro column inside
  simpa [cell?, inside] using h column

end Row

end AnsiCanvas
