import AnsiCanvas.Proofs.Screen.Carry

/-! # Rows that continue as one

Without a budget, rows that continue from the row above are one long row cut into lines.  Only the
first cell of all says everything about its pen; every other cell, also at the start of a row, says
how it differs from the cell before it in reading order.
-/

namespace AnsiCanvas

variable {width : Nat}

namespace Row

/-- What is written of each of a list of cells: the escape that makes its pen out of that of the
    cell before it, and its glyph. -/
def texts (escapes : EscapeOptions) (before : Option Pen) (cells : List Cell) : List String :=
  List.zipWith (fun before cell => cell.pen.escape before escapes ++ cell.glyph.toString)
    (before :: cells.map fun cell => some cell.pen) cells

theorem texts_cons (escapes : EscapeOptions) (before : Option Pen) (cell : Cell)
    (cells : List Cell) :
    texts escapes before (cell :: cells)
      = (cell.pen.escape before escapes ++ cell.glyph.toString)
        :: texts escapes (some cell.pen) cells := rfl

@[simp] theorem length_texts (escapes : EscapeOptions) (before : Option Pen) (cells : List Cell) :
    (texts escapes before cells).length = cells.length := by
  simp [texts]

/-- The pen that the cell with an index is compared with: that of the cell before it, and for the
    first one what comes before all cells. -/
def penBefore (before : Option Pen) (cells : List Cell) : Nat → Option Pen
  | 0 => before
  | index + 1 => cells[index]?.map Cell.pen

theorem getElem?_texts (escapes : EscapeOptions) (before : Option Pen) (cells : List Cell)
    (index : Nat) :
    (texts escapes before cells)[index]?
      = cells[index]?.map fun cell =>
          cell.pen.escape (penBefore before cells index) escapes ++ cell.glyph.toString := by
  induction cells generalizing before index with
  | nil => rfl
  | cons cell cells ih =>
    cases index with
    | zero => rfl
    | succ index =>
      rw [texts_cons, List.getElem?_cons_succ, List.getElem?_cons_succ, ih]
      cases index <;> rfl

theorem texts_append (escapes : EscapeOptions) (before : Option Pen) (first second : List Cell) :
    texts escapes before (first ++ second)
      = texts escapes before first ++ texts escapes (lastPen before first) second := by
  induction first generalizing before with
  | nil => rfl
  | cons cell first ih =>
    rw [List.cons_append, texts_cons, texts_cons, ih, lastPen_cons, List.cons_append]

theorem join_texts (escapes : EscapeOptions) (before : Option Pen) (cells : List Cell) :
    String.join (texts escapes before cells) = String.join (pieces escapes before cells) := by
  induction cells generalizing before with
  | nil => rfl
  | cons cell cells ih =>
    rw [texts_cons, pieces, String.join_cons, String.join_cons, String.join_cons, ih,
      String.append_assoc]

theorem content_eq_join_texts {options : RenderOptions} (unlimited : options.rowBudget = 0)
    (before : Option Pen) (row : Row width) :
    row.content options before
      = String.join (texts options.escapes before row.cells.toList) := by
  rw [content_of_unlimited unlimited, join_parts, join_texts]

end Row

namespace Screen

open Row (lastPen texts)

/-- The cells of a screen in reading order. -/
def cells (screen : Screen width) : List Cell :=
  screen.rows.toList.flatMap fun row => row.cells.toList

/-- The screen whose only row has all cells of a screen in reading order. -/
def inOneRow (screen : Screen width) : Screen screen.cells.length :=
  ⟨#[⟨⟨screen.cells.toArray, List.size_toArray⟩⟩]⟩

variable {options : RenderOptions}

/-- A row hands down the pen of its last cell. -/
theorem contents_cons_of_unlimited (carries : options.baseline = .carryAcrossRows)
    (unlimited : options.rowBudget = 0) (row : Row width) (rows : List (Row width))
    (before : Option Pen) :
    contents options (row :: rows) before
      = String.join (texts options.escapes before row.cells.toList)
        :: contents options rows (lastPen before row.cells.toList) := by
  rw [contents, Row.baseline_of_carryAcrossRows carries, Row.reached_of_unlimited unlimited,
    Row.content_eq_join_texts unlimited]

/-- Each row takes its share of what the cells come to. -/
theorem contents_eq_shares (carries : options.baseline = .carryAcrossRows)
    (unlimited : options.rowBudget = 0) (rows : List (Row width)) (before : Option Pen) :
    contents options rows before
      = (List.range rows.length).map fun index =>
          String.join (((texts options.escapes before
            (rows.flatMap fun row => row.cells.toList)).drop (index * width)).take width) := by
  induction rows generalizing before with
  | nil => rfl
  | cons row rows ih =>
    have length : (texts options.escapes before row.cells.toList).length = width := by
      rw [Row.length_texts, Vector.length_toList]
    rw [contents_cons_of_unlimited carries unlimited, ih, List.length_cons,
      List.range_succ_eq_map, List.map_cons, List.map_map, List.flatMap_cons, Row.texts_append]
    congr 1
    · rw [Nat.zero_mul, List.drop_zero, List.take_left' length]
    · apply List.map_congr_left
      intro index _
      -- Behind the first row the shares are those of the other rows.
      rw [Function.comp_apply, Nat.succ_mul, Nat.add_comm, ← List.drop_drop,
        List.drop_left' length]

theorem join_contents (carries : options.baseline = .carryAcrossRows)
    (unlimited : options.rowBudget = 0) (rows : List (Row width)) (before : Option Pen) :
    String.join (contents options rows before)
      = String.join (texts options.escapes before (rows.flatMap fun row => row.cells.toList)) := by
  induction rows generalizing before with
  | nil => rfl
  | cons row rows ih =>
    rw [contents_cons_of_unlimited carries unlimited, String.join_cons, ih, List.flatMap_cons,
      Row.texts_append, String.join_append]

/-- There is no row above a single row, so it does not matter whether rows continue. -/
theorem writeTo_inOneRow (unlimited : options.rowBudget = 0) (screen : Screen width) :
    screen.inOneRow.writeTo options
      = Outlet.write (Row.framed options 1
          (String.join (texts options.escapes none screen.cells))) := by
  have start : Row.baseline options none = none := by
    rw [Row.baseline]
    split <;> rfl
  rw [writeTo_eq, inOneRow]
  simp only [contents, start, Row.content_eq_join_texts unlimited]
  rw [List.mapIdx_singleton, String.join_cons]
  exact congrArg Outlet.write (String.append_empty)

/-- Rows that continue from the row above are one long row.  Without a budget, what is within the
    frames of the rows, put together, is what is within the frame of the one row that holds all
    cells in reading order, whether rows continue or not.  Of all cells the first alone is compared
    with nothing, and so rendered in full.  Each other one is compared with the cell before it, and
    every row has its share of what the cells come to. -/
theorem writeTo_continues_as_one_row (options : RenderOptions) (screen : Screen width) :
    let texts := Row.texts options.escapes none screen.cells
    let contents := (List.range screen.height).map fun index =>
      String.join ((texts.drop (index * width)).take width)
    screen.writeTo { options with rowBudget := 0, baseline := .carryAcrossRows }
        = Outlet.write (String.join (contents.mapIdx fun index content =>
            Row.framed options (index + 1) content))
      ∧ String.join contents = String.join texts
      ∧ (∀ index : Nat, texts[index]? = screen.cells[index]?.map fun cell : Cell =>
          cell.pen.escape (Row.penBefore none screen.cells index) options.escapes
            ++ cell.glyph.toString)
      ∧ ∀ baseline, screen.inOneRow.writeTo { options with rowBudget := 0, baseline := baseline }
          = Outlet.write (Row.framed options 1 (String.join texts)) := by
  intro texts contents
  let carried : RenderOptions := { options with rowBudget := 0, baseline := .carryAcrossRows }
  have shares : Screen.contents carried screen.rows.toList none = contents := by
    rw [contents_eq_shares rfl rfl, Array.length_toList]
    rfl
  refine ⟨?_, ?_, Row.getElem?_texts options.escapes none screen.cells,
    fun baseline => writeTo_inOneRow rfl screen⟩
  · rw [writeTo_eq, shares]
    rfl
  · rw [← shares]
    exact join_contents rfl rfl _ _

end Screen

end AnsiCanvas
