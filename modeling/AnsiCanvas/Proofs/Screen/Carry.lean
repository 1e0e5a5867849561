import AnsiCanvas.Proofs.Screen.Budget
import AnsiCanvas.Proofs.Screen.Cells

/-! # Pens carried from row to row

Where rows continue from the row above, the first cell of a row is compared with the cell at which
the row above stopped.  Without a budget that is its last cell.  With one it is the first cell that
no longer fits, even though nothing of that cell may have been written, and so a row that is cut
before its last cell changes what is written of the row below it.
-/

namespace AnsiCanvas

variable {width : Nat}

namespace Row

/-! ## Where a row stops -/

/-- The pen that the next cell is compared with, after cells that are all written. -/
def lastPen (before : Option Pen) (cells : List Cell) : Option Pen :=
  (cells.getLast?.map Cell.pen).or before

theorem lastPen_cons (before : Option Pen) (cell : Cell) (cells : List Cell) :
    lastPen before (cell :: cells) = lastPen (some cell.pen) cells := by
  cases cells with
  | nil => rfl
  | cons other cells => simp [lastPen, List.getLast?_cons]

theorem parts_append (escapes : EscapeOptions) (before : Option Pen) (first second : List Cell) :
    parts escapes before (first ++ second)
      = parts escapes before first ++ parts escapes (lastPen before first) second := by
  induction first generalizing before with
  | nil => rfl
  | cons cell first ih => simp [parts, ih, lastPen_cons]

/-- The column, counted from one, of the cell at which the writing of cells stops: the first that
    does not fit whole, or else the last. -/
structure StopsAt (budget : Nat) (escapes : EscapeOptions) (before : Option Pen)
    (cells : List Cell) (column : Nat) : Prop where
  positive : 0 < column
  inside : column ≤ cells.length
  fits : (String.join (parts escapes before (cells.take (column - 1)))).utf8ByteSize ≤ budget
  spills : column < cells.length →
    budget < (String.join (parts escapes before (cells.take column))).utf8ByteSize

theorem size_parts_cons (escapes : EscapeOptions) (before : Option Pen) (cell : Cell)
    (cells : List Cell) :
    (String.join (parts escapes before (cell :: cells))).utf8ByteSize
      = (cell.pen.escape before escapes).utf8ByteSize + cell.glyph.toString.utf8ByteSize
        + (String.join (parts escapes (some cell.pen) cells)).utf8ByteSize := by
  rw [join_parts, join_parts, pieces, String.join_cons, String.join_cons,
    String.utf8ByteSize_append, String.utf8ByteSize_append, Nat.add_assoc]

theorem size_parts_take_le (escapes : EscapeOptions) (before : Option Pen) (cells : List Cell)
    {few many : Nat} (le : few ≤ many) :
    (String.join (parts escapes before (cells.take few))).utf8ByteSize
      ≤ (String.join (parts escapes before (cells.take many))).utf8ByteSize := by
  have split : cells.take many = cells.take few ++ (cells.drop few).take (many - few) := by
    rw [← List.take_add, Nat.add_sub_cancel' le]
  rw [split, parts_append, String.join_append, String.utf8ByteSize_append]
  exact Nat.le_add_right _ _

variable {options : RenderOptions}

/-- The pen that is passed on is that of the cell at which the writing stops. -/
theorem exists_stopsAt (limited : 0 < options.rowBudget) {cells : List Cell} (some? : cells ≠ [])
    (before : Option Pen) {used : Nat} (left : used ≤ options.rowBudget) :
    ∃ column, StopsAt (options.rowBudget - used) options.escapes before cells column
      ∧ reached options cells before used = cells[column - 1]?.map Cell.pen := by
  induction cells generalizing before used with
  | nil => contradiction
  | cons cell cells ih =>
    have size := size_parts_cons options.escapes before cell
    rw [reached]
    split
    · next fits =>
      rw [Bool.and_eq_true, fits_iff limited, fits_iff limited] at fits
      by_cases last : cells = []
      · subst last
        exact ⟨1, ⟨Nat.one_pos, Nat.le_refl _, by simp [parts], by simp⟩, rfl⟩
      · obtain ⟨column, ⟨positive, inside, within, spills⟩, passed⟩ :=
          ih last (some cell.pen) fits.2
        have next : column + 1 - 1 = column - 1 + 1 := by omega
        refine ⟨column + 1, ⟨Nat.succ_pos _, Nat.succ_le_succ inside, ?_, ?_⟩, ?_⟩
        · rw [next, List.take_succ_cons, size]
          omega
        · intro short
          have := spills (Nat.lt_of_succ_lt_succ short)
          rw [List.take_succ_cons, size]
          omega
        · rw [passed, next, List.getElem?_cons_succ]
    · next spills =>
      rw [Bool.and_eq_true, fits_iff limited, fits_iff limited] at spills
      refine ⟨1, ⟨Nat.one_pos, Nat.succ_le_succ (Nat.zero_le _), by simp [parts], ?_⟩, rfl⟩
      intro _
      rw [List.take_succ_cons, List.take_zero, size]
      omega

/-- All cells of a row but its last fit into the budget. -/
def ReachesEnd (budget : Nat) (escapes : EscapeOptions) (before : Option Pen) (row : Row width) :
    Prop :=
  (String.join (parts escapes before (row.cells.toList.take (width - 1)))).utf8ByteSize ≤ budget

theorem ReachesEnd.column_eq {budget : Nat} {escapes : EscapeOptions} {before : Option Pen}
    {row : Row width} (reaches : row.ReachesEnd budget escapes before) {column : Nat}
    (stops : StopsAt budget escapes before row.cells.toList column) : column = width := by
  have length : row.cells.toList.length = width := row.cells.length_toList
  apply Nat.le_antisymm (length ▸ stops.inside)
  apply Nat.le_of_not_lt
  intro short
  have spills := stops.spills (length.symm ▸ short)
  have le := size_parts_take_le escapes before row.cells.toList (Nat.le_sub_one_of_lt short)
  exact Nat.lt_irrefl _ (Nat.lt_of_lt_of_le spills (Nat.le_trans le reaches))

theorem reached_of_unlimited (unlimited : options.rowBudget = 0) (cells : List Cell)
    (before : Option Pen) (used : Nat) :
    reached options cells before used = lastPen before cells := by
  induction cells generalizing before used with
  | nil => rfl
  | cons cell cells ih =>
    have fits (used size : Nat) : options.fits used size = true := by
      simp [RenderOptions.fits, unlimited]
    rw [reached, lastPen_cons, ← ih _ (used + _ + _), if_pos (by rw [fits, fits]; rfl)]

end Row

namespace Screen

open Row (LongestWithin StopsAt parts)

/-! ## Where rows start -/

/-- The pen that the row with an index starts from. -/
def start (options : RenderOptions) : List (Row width) → Option Pen → Nat → Option Pen
  | row :: rest, before, index + 1 =>
    start options rest (Row.reached options row.cells.toList before 0) index
  | _, before, _ => before

variable {options : RenderOptions}

theorem start_zero (rows : List (Row width)) (before : Option Pen) :
    start options rows before 0 = before := by
  cases rows <;> rfl

theorem start_succ {rows : List (Row width)} {index : Nat} {row : Row width}
    (found : rows[index]? = some row) (before : Option Pen) :
    start options rows before (index + 1)
      = Row.reached options row.cells.toList (start options rows before index) 0 := by
  induction rows generalizing before index with
  | nil => cases found
  | cons first rows ih =>
    cases index with
    | zero =>
      cases found
      rw [start, start_zero, start_zero]
    | succ index => exact ih found _

theorem getElem?_contents_of_carryAcrossRows (carries : options.baseline = .carryAcrossRows)
    (rows : List (Row width)) (before : Option Pen) (index : Nat) :
    (contents options rows before)[index]?
      = rows[index]?.map fun row => row.content options (start options rows before index) := by
  induction rows generalizing before index with
  | nil => rfl
  | cons first rows ih =>
    rw [contents, Row.baseline_of_carryAcrossRows carries]
    cases index with
    | zero => rfl
    | succ index =>
      rw [List.getElem?_cons_succ, List.getElem?_cons_succ, ih]
      rfl

/-- The pen of the last cell of the row above that with an index, none above the first. -/
def penAbove (screen : Screen width) (index : Nat) : Option Pen :=
  (screen.cell? ⟨width, index⟩).map Cell.pen

theorem penAbove_zero (screen : Screen width) : screen.penAbove 0 = none := by
  simp [penAbove, cell?, row?]

theorem cell?_of_row {screen : Screen width} {index : Nat} {row : Row width}
    (found : screen.rows[index]? = some row) {column : Nat} (positive : 0 < column) :
    screen.cell? ⟨column, index + 1⟩ = row.cells.toList[column - 1]? := by
  have place : Position.Positive ⟨column, index + 1⟩ := ⟨positive, Nat.succ_pos index⟩
  rw [cell?_of_positive _ place]
  simp [Position.rowIndex, Position.columnIndex, found, Row.cell?]

theorem penAbove_succ {screen : Screen width} {index : Nat} {row : Row width}
    (found : screen.rows[index]? = some row) (positive : 0 < width) (before : Option Pen) :
    screen.penAbove (index + 1) = Row.lastPen before row.cells.toList := by
  have last : row.cells.toList.getLast? = row.cells.toList[width - 1]? := by
    rw [List.getLast?_eq_getElem?, Vector.length_toList]
  have inside : width - 1 < row.cells.toList.length := by
    rw [Vector.length_toList]
    omega
  rw [penAbove, cell?_of_row found positive, Row.lastPen, last, List.getElem?_eq_getElem inside]
  rfl

/-- The pen that the row with an index starts from. -/
def startAt (options : RenderOptions) (screen : Screen width) (index : Nat) : Option Pen :=
  start options screen.rows.toList none index

theorem startAt_zero (screen : Screen width) : screen.startAt options 0 = none := start_zero _ _

theorem startAt_succ {screen : Screen width} {index : Nat} {row : Row width}
    (found : screen.rows[index]? = some row) :
    screen.startAt options (index + 1)
      = Row.reached options row.cells.toList (screen.startAt options index) 0 :=
  start_succ (by rwa [Array.getElem?_toList]) none

theorem getElem?_contents (carries : options.baseline = .carryAcrossRows) (screen : Screen width)
    (index : Nat) :
    (contents options screen.rows.toList none)[index]?
      = screen.rows[index]?.map fun row => row.content options (screen.startAt options index) := by
  rw [getElem?_contents_of_carryAcrossRows carries, Array.getElem?_toList]
  rfl

theorem startAt_of_unlimited (unlimited : options.rowBudget = 0) (positive : 0 < width)
    {screen : Screen width} {index : Nat} {row : Row width}
    (found : screen.rows[index]? = some row) :
    screen.startAt options index = screen.penAbove index := by
  cases index with
  | zero => rw [startAt_zero, penAbove_zero]
  | succ index =>
    have inside : index < screen.rows.size :=
      Nat.lt_of_succ_lt (Array.getElem?_eq_some_iff.mp found).1
    have above := Array.getElem?_eq_getElem inside
    rw [startAt_succ above, Row.reached_of_unlimited unlimited, penAbove_succ above positive]

/-- Without a budget every row continues from the last cell of the row above. -/
theorem writeTo_of_unlimited (carries : options.baseline = .carryAcrossRows)
    (unlimited : options.rowBudget = 0) (positive : 0 < width) (screen : Screen width) :
    screen.writeTo options
      = Outlet.write (String.join (screen.rows.toList.mapIdx fun index row =>
          Row.framed options (index + 1)
            (String.join (parts options.escapes (screen.penAbove index) row.cells.toList)))) := by
  refine writeTo_of_contents fun index => ?_
  rw [getElem?_contents carries, Array.getElem?_toList]
  cases found : screen.rows[index]? with
  | none => rfl
  | some row =>
    rw [Option.map_some, Option.map_some, Row.content_of_unlimited unlimited,
      startAt_of_unlimited unlimited positive found]

theorem exists_stopsAt_of_row (limited : 0 < options.rowBudget) (positive : 0 < width)
    {screen : Screen width} {index : Nat} {row : Row width}
    (found : screen.rows[index]? = some row) :
    ∃ column,
      StopsAt options.rowBudget options.escapes (screen.startAt options index) row.cells.toList
          column
        ∧ screen.startAt options (index + 1)
          = (screen.cell? ⟨column, index + 1⟩).map Cell.pen := by
  have nonempty : row.cells.toList ≠ [] := by
    rw [← List.length_pos_iff, Vector.length_toList]
    exact positive
  obtain ⟨column, stops, passed⟩ :=
    Row.exists_stopsAt limited nonempty (screen.startAt options index) (Nat.zero_le _)
  exact ⟨column, stops, by rw [startAt_succ found, passed, cell?_of_row found stops.positive]⟩

/-- Below rows that all reach their last cells a row starts from the last cell above it. -/
theorem startAt_of_reachesEnd (limited : 0 < options.rowBudget) (positive : 0 < width)
    {screen : Screen width} {last : Nat} (inside : last ≤ screen.height)
    (reach : ∀ index row, index < last → screen.rows[index]? = some row →
      row.ReachesEnd options.rowBudget options.escapes (screen.penAbove index)) :
    screen.startAt options last = screen.penAbove last := by
  induction last with
  | zero => rw [startAt_zero, penAbove_zero]
  | succ last ih =>
    have found := Array.getElem?_eq_getElem (Nat.lt_of_succ_le inside)
    obtain ⟨column, stops, passed⟩ := exists_stopsAt_of_row limited positive found
    rw [ih (Nat.le_of_succ_le inside)
      fun index row less => reach index row (Nat.lt_succ_of_lt less)] at stops
    obtain rfl := (reach last _ (Nat.lt_succ_self last) found).column_eq stops
    exact passed

/-- The parts that the budget leaves of the row with an index. -/
def keptAt (options : RenderOptions) (screen : Screen width) (index : Nat) : List String :=
  (screen.rows[index]?.map fun row => row.kept options (screen.startAt options index)).getD []

theorem keptAt_of_row {screen : Screen width} {index : Nat} {row : Row width}
    (found : screen.rows[index]? = some row) :
    screen.keptAt options index = row.kept options (screen.startAt options index) := by
  rw [keptAt, found, Option.map_some, Option.getD_some]

theorem writeTo_of_limited (carries : options.baseline = .carryAcrossRows)
    (limited : 0 < options.rowBudget) (screen : Screen width) :
    screen.writeTo options
      = Outlet.write (String.join (screen.rows.toList.mapIdx fun index _ =>
          Row.framed options (index + 1) (String.join (screen.keptAt options index)))) := by
  refine writeTo_of_contents fun index => ?_
  rw [getElem?_contents carries, Array.getElem?_toList]
  cases found : screen.rows[index]? with
  | none => rfl
  | some row =>
    rw [Option.map_some, Option.map_some, Row.content_of_limited limited, keptAt_of_row found]

/-- Rows that continue from the row above do so from the cell at which that row stopped.  Without a
    budget every row starts from the last cell of the row above.  With one, what is within the frame
    of a row is the longest beginning of its parts that takes no more bytes, but these parts start
    from the cell at which the row above stopped: the first that did not fit whole, or else the
    last.  So the parts are those that the row has without a budget as long as every row above
    reaches its last cell. -/
theorem writeTo_carries_from_stop (carries : options.baseline = .carryAcrossRows)
    (limited : 0 < options.rowBudget) (positive : 0 < width) (screen : Screen width) :
    screen.writeTo (options.withBudget 0)
        = Outlet.write (String.join (screen.rows.toList.mapIdx fun index row =>
            Row.framed options (index + 1)
              (String.join (parts options.escapes (screen.penAbove index) row.cells.toList))))
      ∧ ∃ (start : Nat → Option Pen) (kept : Nat → List String),
          start 0 = none
            ∧ (∀ index row, screen.rows[index]? = some row →
                LongestWithin options.rowBudget
                    (parts options.escapes (start index) row.cells.toList) (kept index)
                  ∧ ∃ column, StopsAt options.rowBudget options.escapes (start index)
                        row.cells.toList column
                      ∧ start (index + 1) = (screen.cell? ⟨column, index + 1⟩).map Cell.pen)
            ∧ screen.writeTo options
                = Outlet.write (String.join (screen.rows.toList.mapIdx fun index _ =>
                    Row.framed options (index + 1) (String.join (kept index))))
            ∧ ∀ last row, screen.rows[last]? = some row →
                (∀ index above, index < last → screen.rows[index]? = some above →
                  above.ReachesEnd options.rowBudget options.escapes (screen.penAbove index)) →
                LongestWithin options.rowBudget
                  (parts options.escapes (screen.penAbove last) row.cells.toList) (kept last) := by
  have longest {index : Nat} {row : Row width} (found : screen.rows[index]? = some row) :
      LongestWithin options.rowBudget
        (parts options.escapes (screen.startAt options index) row.cells.toList)
        (screen.keptAt options index) := by
    rw [keptAt_of_row found]
    exact Row.longestWithin_kept limited _ row
  have stillCarries : (options.withBudget 0).baseline = .carryAcrossRows := carries
  refine ⟨writeTo_of_unlimited stillCarries rfl positive screen, screen.startAt options,
    screen.keptAt options, screen.startAt_zero,
    fun index row found => ⟨longest found, exists_stopsAt_of_row limited positive found⟩,
    writeTo_of_limited carries limited screen, fun last row found reach => ?_⟩
  have inside : last ≤ screen.height := Nat.le_of_lt (Array.getElem?_eq_some_iff.mp found).1
  rw [← startAt_of_reachesEnd limited positive inside reach]
  exact longest found

/-- Three colors, and a row that begins with the last of them. -/
def striped : Screen 3 :=
  ⟨#[⟨#v[.draw 'A' ⟨{}, .classic 1, .unset⟩, .draw 'B' ⟨{}, .classic 4, .unset⟩,
        .draw 'C' ⟨{}, .classic 2, .unset⟩]⟩,
      ⟨#v[.draw 'D' ⟨{}, .classic 2, .unset⟩, .blank, .blank]⟩]⟩

/-- The first row stops at its second cell, so the second row has to name the color of the third. -/
theorem writeTo_carries_from_second_cell :
    striped.writeTo { rowBudget := 10, baseline := .carryAcrossRows }
      = Outlet.write "\x1b[0m\x1b[31;40mA\x1b[0m\n\x1b[0m\x1b[32mD\x1b[0m\n" := by
  have limited : 0 < RenderOptions.rowBudget { rowBudget := 10, baseline := .carryAcrossRows } := by
    decide
  obtain ⟨-, start, kept, first, rows, written, -⟩ :=
    writeTo_carries_from_stop rfl limited (by decide) striped
  obtain ⟨longest, column, stops, passed⟩ := rows 0 _ rfl
  obtain ⟨longestBelow, -⟩ := rows 1 _ rfl
  rw [first] at longest stops
  have few := longest.unique (Row.longestWithin_kept limited none _)
  have second : column = 2 := by
    have inside : column ≤ 3 := stops.inside
    have := stops.positive
    have notFirst : column ≠ 1 := by
      rintro rfl
      exact absurd (stops.spills (by decide)) (by decide)
    have notThird : column ≠ 3 := by
      rintro rfl
      exact absurd stops.fits (by decide)
    omega
  rw [second] at passed
  rw [passed] at longestBelow
  have fewBelow := longestBelow.unique (Row.longestWithin_kept limited _ _)
  rw [written]
  apply congrArg Outlet.write
  change String.join [Row.framed _ 1 (String.join (kept 0)), Row.framed _ 2 (String.join (kept 1))]
    = _
  rw [few, fewBelow]
  decide

/-- What is left of a row within a budget need not begin the row that there is without one. -/
theorem not_writeTo_keeps_longest_of_striped :
    ¬ ∃ kept : Nat → List String,
        (∀ index row, striped.rows[index]? = some row →
          LongestWithin 10 (parts {} (striped.penAbove index) row.cells.toList) (kept index))
        ∧ striped.writeTo { rowBudget := 10, baseline := .carryAcrossRows }
            = Outlet.write (String.join (striped.rows.toList.mapIdx fun index _ =>
                Row.framed {} (index + 1) (String.join (kept index)))) := by
  rintro ⟨kept, longest, written⟩
  have limited : 0 < RenderOptions.rowBudget { rowBudget := 10 } := by decide
  have few := (longest 0 _ rfl).unique (Row.longestWithin_kept limited _ _)
  have fewBelow := (longest 1 _ rfl).unique (Row.longestWithin_kept limited _ _)
  rw [writeTo_eq] at written
  have same := congrArg (fun writing => (Outlet.collect writing).text) written
  simp only [Outlet.collect, Outlet.write_fresh, Outlet.text_received] at same
  change _ = String.join
    [Row.framed _ 1 (String.join (kept 0)), Row.framed _ 2 (String.join (kept 1))] at same
  rw [few, fewBelow] at same
  exact absurd same (by decide)

end Screen

end AnsiCanvas
