import AnsiCanvas.Proofs.Pen.Effective
import AnsiCanvas.Proofs.Screen.Cells
import AnsiCanvas.Proofs.Screen.Pieces

/-! # Effective screens

Whatever a pen holds beyond what it shows leaves no trace in the output: neither in the escapes,
nor in what is left of a budget, nor in the pen that the next row continues from.  So a screen is
written like the screen of its effective cells, and screens that show the same are written alike.
-/

namespace AnsiCanvas

variable {width : Nat}

namespace Cell

/-- The glyph of a cell, drawn with its effective pen. -/
def effective (cell : Cell) (downsample : Bool) : Cell :=
  .draw cell.glyph (cell.pen.effective downsample)

@[simp] theorem glyph_effective (cell : Cell) (downsample : Bool) :
    (cell.effective downsample).glyph = cell.glyph :=
  glyph_draw _ _

@[simp] theorem pen_effective (cell : Cell) (downsample : Bool) :
    (cell.effective downsample).pen = cell.pen.effective downsample := rfl

/-- Cells with the same glyph and the same styles, whose layers show the same colors. -/
structure LooksLike (first second : Cell) (downsample : Bool) : Prop where
  glyph : first.glyph = second.glyph
  styles : first.pen.styles = second.pen.styles
  shown : ∀ layer, first.pen.shown downsample layer = second.pen.shown downsample layer

theorem looksLike_iff {first second : Cell} {downsample : Bool} :
    first.LooksLike second downsample
      ↔ first.effective downsample = second.effective downsample := by
  constructor
  · intro same
    simp only [Cell.effective, Pen.effective, same.glyph, same.styles, same.shown]
  · intro equal
    have glyph := congrArg Cell.glyph equal
    have pen := congrArg Cell.pen equal
    rw [glyph_effective, glyph_effective] at glyph
    rw [pen_effective, pen_effective, Pen.effective, Pen.effective, Pen.mk.injEq] at pen
    refine ⟨glyph, pen.1, fun layer => ?_⟩
    cases layer with
    | foreground => exact pen.2.1
    | background => exact pen.2.2

end Cell

namespace Row

def effective (row : Row width) (downsample : Bool) : Row width :=
  ⟨row.cells.map (·.effective downsample)⟩

theorem toList_effective (row : Row width) (downsample : Bool) :
    (row.effective downsample).cells.toList
      = row.cells.toList.map (·.effective downsample) :=
  Vector.toList_map

theorem cell?_effective (row : Row width) (downsample : Bool) (column : Nat) :
    (row.effective downsample).cell? column
      = (row.cell? column).map (·.effective downsample) :=
  Vector.getElem?_map ..

variable (options : RenderOptions)

theorem pieces_effective (cells : List Cell) (before : Option Pen) :
    pieces options.escapes (before.map (·.effective options.escapes.downsample))
        (cells.map (·.effective options.escapes.downsample))
      = pieces options.escapes before cells := by
  induction cells generalizing before with
  | nil => rfl
  | cons cell cells ih =>
    have rest := ih (some cell.pen)
    rw [Option.map_some] at rest
    rw [List.map_cons, pieces, pieces, Cell.pen_effective, Cell.glyph_effective, rest,
      Pen.escape_effective]

/-- The pen of the last cell reached is as effective as its cell. -/
theorem reached_effective (cells : List Cell) (before : Option Pen) (used : Nat) :
    reached options (cells.map (·.effective options.escapes.downsample))
        (before.map (·.effective options.escapes.downsample)) used
      = (reached options cells before used).map (·.effective options.escapes.downsample) := by
  induction cells generalizing before used with
  | nil => rfl
  | cons cell cells ih =>
    have rest (used : Nat) := ih (some cell.pen) used
    simp only [Option.map_some] at rest
    simp only [List.map_cons, reached, Cell.pen_effective, Cell.glyph_effective,
      Pen.escape_effective, rest]
    split <;> rfl

theorem baseline_map (change : Pen → Pen) (before : Option Pen) :
    baseline options (before.map change) = (baseline options before).map change := by
  rw [baseline, baseline]
  cases options.baseline <;> rfl

theorem content_effective (row : Row width) (before : Option Pen) :
    (row.effective options.escapes.downsample).content options
        (before.map (·.effective options.escapes.downsample))
      = row.content options before := by
  rw [content, content, toList_effective, pieces_effective]

end Row

namespace Screen

def effective (screen : Screen width) (downsample : Bool) : Screen width :=
  ⟨screen.rows.map (·.effective downsample)⟩

theorem contents_effective (options : RenderOptions) (rows : List (Row width))
    (before : Option Pen) :
    contents options (rows.map (·.effective options.escapes.downsample))
        (before.map (·.effective options.escapes.downsample))
      = contents options rows before := by
  induction rows generalizing before with
  | nil => rfl
  | cons row rows ih =>
    -- Each row is compared with what the rows above have reached.
    rw [List.map_cons, contents, contents, Row.baseline_map, Row.content_effective,
      Row.toList_effective, Row.reached_effective, ih]

/-- A screen is written like its effective screen. -/
theorem writeTo_effective (options : RenderOptions) (screen : Screen width) :
    (screen.effective options.escapes.downsample).writeTo options = screen.writeTo options := by
  have contents := contents_effective options screen.rows.toList none
  rw [Option.map_none] at contents
  rw [writeTo_eq, writeTo_eq, effective, Array.toList_map, contents]

theorem render_effective (options : RenderOptions) (screen : Screen width) :
    (screen.effective options.escapes.downsample).render options = screen.render options := by
  rw [render, writeTo_effective, render]

theorem height_effective (screen : Screen width) (downsample : Bool) :
    (screen.effective downsample).height = screen.height :=
  Array.size_map

theorem cell?_effective (screen : Screen width) (downsample : Bool) (place : Position) :
    (screen.effective downsample).cell? place
      = (screen.cell? place).map (·.effective downsample) :=
  cell?_of_changed (fun _ row => row.effective downsample) (fun _ cell => cell.effective downsample)
    (fun _ => Array.getElem?_map ..) (fun _ row column => row.cell?_effective downsample column)
    place

theorem cell?_at (screen : Screen width) (column index : Nat) :
    screen.cell? ⟨column + 1, index + 1⟩
      = screen.rows[index]?.bind fun row => row.cell? column :=
  screen.cell?_of_positive ⟨Nat.succ_pos column, Nat.succ_pos index⟩

/-- A screen is known by its height and its cells. -/
theorem ext_cell? {first second : Screen width} (height : first.height = second.height)
    (cells : ∀ place, first.cell? place = second.cell? place) : first = second := by
  rw [mk.injEq]
  apply Array.ext height
  intro index inFirst inSecond
  apply Row.ext_cell?
  intro column
  have same := cells ⟨column + 1, index + 1⟩
  rwa [cell?_at, cell?_at, Array.getElem?_eq_getElem inFirst,
    Array.getElem?_eq_getElem inSecond] at same

/-- Screens of the same dimensions whose cells look alike, place by place. -/
structure LooksLike (first second : Screen width) (downsample : Bool) : Prop where
  height : first.height = second.height
  cells : ∀ place one other, first.cell? place = some one → second.cell? place = some other →
    one.LooksLike other downsample

/-- Screens look alike exactly if they have the same effective screen. -/
theorem looksLike_iff {first second : Screen width} {downsample : Bool} :
    first.LooksLike second downsample
      ↔ first.effective downsample = second.effective downsample := by
  constructor
  · intro same
    apply ext_cell?
    · rw [height_effective, height_effective, same.height]
    · intro place
      have one := first.cell?_eq_seen place
      have other := second.cell?_eq_seen place
      rw [← same.height] at other
      rw [cell?_effective, cell?_effective, one, other]
      -- A place has a cell on both screens or on neither.
      split
      · next inside =>
        rw [if_pos inside] at one other
        exact congrArg some (Cell.looksLike_iff.mp (same.cells place _ _ one other))
      · rfl
  · intro equal
    refine ⟨?_, fun place one other isOne isOther => Cell.looksLike_iff.mpr ?_⟩
    · rw [← height_effective first, equal, height_effective]
    · have drawn := cell?_effective first downsample place
      rw [equal, cell?_effective, isOne, isOther] at drawn
      exact (Option.some.inj drawn).symm

theorem LooksLike.writeTo {first second : Screen width} {options : RenderOptions}
    (same : first.LooksLike second options.escapes.downsample) :
    first.writeTo options = second.writeTo options := by
  rw [← writeTo_effective, looksLike_iff.mp same, writeTo_effective]

end Screen

end AnsiCanvas
