import AnsiCanvas.Screen.Erase

/-! # The screen cell by cell

A screen is seen as a cell at every place, blank where it does not reach.  In this view
growing is invisible, writing changes one place and erasing blanks exactly the places it
covers.
-/

namespace AnsiCanvas

variable {width : Nat}

/-- The places of a row that erasing part of it covers. -/
def LineErase.covers (cursor place : Position) : LineErase → Bool
  | .toEnd => decide (place.row = cursor.row ∧ cursor.column ≤ place.column)
  | .toStart => decide (place.row = cursor.row ∧ place.column ≤ cursor.column)
  | .all => decide (place.row = cursor.row)

/-- The places that erasing part of the screen covers, in reading order. -/
def DisplayErase.covers (cursor place : Position) : DisplayErase → Bool
  | .toEnd =>
    decide (cursor.row < place.row ∨ place.row = cursor.row ∧ cursor.column ≤ place.column)
  | .toStart =>
    decide (place.row < cursor.row ∨ place.row = cursor.row ∧ place.column ≤ cursor.column)
  | .all | .scrollback => true

/-- A place with both coordinates counted from one. -/
structure Position.Positive (position : Position) : Prop where
  column : 1 ≤ position.column
  row : 1 ≤ position.row

theorem Position.Positive.columnIndex_add_one {position : Position}
    (positive : position.Positive) : position.columnIndex + 1 = position.column :=
  Nat.sub_add_cancel positive.column

theorem Position.Positive.rowIndex_add_one {position : Position} (positive : position.Positive) :
    position.rowIndex + 1 = position.row :=
  Nat.sub_add_cancel positive.row

namespace Row

theorem cell?_set_eq_map (row : Row width) (column other : Nat) (cell : Cell) :
    (row.set column cell).cell? other
      = (row.cell? other).map fun old => if other = column then cell else old := by
  rw [cell?_set]
  by_cases same : column = other
  · subst same
    by_cases inside : column < width
    · simp [inside, cell?]
    · simp [inside, cell?]
  · simp [same, Ne.symm same]

theorem cell?_erase (row : Row width) (column : Nat) (extent : LineErase) (other : Nat)
    (line : Nat) :
    (row.erase column extent).cell? other
      = (row.cell? other).map fun old =>
          if extent.covers ⟨column + 1, line⟩ ⟨other + 1, line⟩ then .blank else old := by
  cases extent with
  | toEnd =>
    rw [erase, cell?_clearRange]
    by_cases inside : other < width
    · simp [LineErase.covers, inside]
    · simp [cell?, inside]
  | toStart =>
    rw [erase, cell?_clearRange]
    simp only [LineErase.covers, Nat.zero_le, true_and, Nat.lt_succ_iff, Nat.add_le_add_iff_right,
      decide_eq_true_eq]
  | all =>
    rw [erase, cell?_blank]
    by_cases inside : other < width
    · simp [LineErase.covers, inside, cell?]
    · simp [LineErase.covers, inside, cell?]

end Row

namespace Screen

/-- The cell seen at a place; beyond the screen everything is blank. -/
def seen (screen : Screen width) (place : Position) : Cell := (screen.cell? place).getD .blank

theorem cell?_of_positive (screen : Screen width) {place : Position} (positive : place.Positive) :
    screen.cell? place
      = screen.rows[place.rowIndex]?.bind fun row => row.cell? place.columnIndex := by
  have column : place.column ≠ 0 := Nat.ne_of_gt positive.column
  have row : place.row ≠ 0 := Nat.ne_of_gt positive.row
  rw [cell?, if_neg column, row?, if_neg row]
  rfl

theorem cell?_of_not_positive (screen : Screen width) {place : Position}
    (zero : ¬ place.Positive) : screen.cell? place = none := by
  by_cases column : place.column = 0
  · rw [cell?, if_pos column]
  · have row : place.row = 0 := by
      rcases Nat.eq_zero_or_pos place.row with row | row
      · exact row
      · exact absurd ⟨Nat.pos_of_ne_zero column, row⟩ zero
    rw [cell?, if_neg column, row?, if_pos row]
    rfl

/-- Exactly the places within width and height have a cell. -/
theorem cell?_eq_seen (screen : Screen width) (place : Position) :
    screen.cell? place
      = if 1 ≤ place.row ∧ place.row ≤ screen.height ∧ 1 ≤ place.column ∧ place.column ≤ width then
          some (screen.seen place)
        else none := by
  by_cases positive : place.Positive
  · obtain ⟨column, row⟩ := positive
    have found := screen.cell?_of_positive ⟨column, row⟩
    by_cases inside : place.rowIndex < screen.rows.size ∧ place.columnIndex < width
    · have bounds : 1 ≤ place.row ∧ place.row ≤ screen.height ∧ 1 ≤ place.column
          ∧ place.column ≤ width := by
        simp only [Position.rowIndex, Position.columnIndex, height] at inside ⊢
        omega
      rw [if_pos bounds, seen, found, Array.getElem?_eq_getElem inside.1, Option.bind_some,
        Row.cell?, Vector.getElem?_eq_getElem inside.2]
      rfl
    · have outside : ¬ (1 ≤ place.row ∧ place.row ≤ screen.height ∧ 1 ≤ place.column
          ∧ place.column ≤ width) := by
        simp only [Position.rowIndex, Position.columnIndex, height] at inside ⊢
        omega
      rw [if_neg outside, found, Option.bind_eq_none_iff]
      intro line present
      have below : place.rowIndex < screen.rows.size := by
        rw [Array.getElem?_eq_some_iff] at present
        exact present.1
      rw [Row.cell?, Vector.getElem?_eq_none (by omega)]
  · have outside : ¬ (1 ≤ place.row ∧ place.row ≤ screen.height ∧ 1 ≤ place.column
        ∧ place.column ≤ width) := fun bounds => positive ⟨bounds.2.2.1, bounds.1⟩
    rw [if_neg outside, cell?_of_not_positive screen positive]

theorem seen_of_cell? {screen : Screen width} {place : Position} {cell : Cell}
    (found : screen.cell? place = some cell) :
    place.column ≤ width ∧ screen.seen place = cell := by
  refine ⟨?_, by rw [seen, found, Option.getD_some]⟩
  rw [cell?_eq_seen] at found
  split at found
  · next inside => exact inside.2.2.2
  · cases found

/-! ## Growing and writing -/

theorem seen_touch (screen : Screen width) (number : Nat) (place : Position) :
    (screen.touch number).seen place = screen.seen place := by
  by_cases positive : place.Positive
  · rw [seen, seen, cell?_of_positive _ positive, cell?_of_positive _ positive,
      getElem?_rows_touch]
    split
    · rfl
    · next beyond =>
      -- A row that was added shows as blank as no row did before.
      rw [Array.getElem?_eq_none (Nat.not_lt.mp beyond)]
      split
      · rw [Option.bind_some, Row.cell?_blank]
        split <;> rfl
      · rfl
  · rw [seen, seen, cell?_of_not_positive _ positive, cell?_of_not_positive _ positive]

theorem cell?_touch_of_cell? {screen : Screen width} {place : Position} {cell : Cell}
    (found : screen.cell? place = some cell) (number : Nat) :
    (screen.touch number).cell? place = some cell := by
  rw [cell?_eq_seen] at found ⊢
  rw [height_touch, seen_touch]
  split at found
  · next inside =>
    obtain ⟨row, below, column⟩ := inside
    rwa [if_pos ⟨row, Nat.le_trans below (Nat.le_max_left _ _), column⟩]
  · cases found

/-- A change row by row and cell by cell, seen from a place. -/
theorem cell?_of_changed {before after : Screen width} (change : Nat → Row width → Row width)
    (replace : Position → Cell → Cell)
    (rows : ∀ index, after.rows[index]? = before.rows[index]?.map (change index))
    (cells : ∀ index row column,
      (change index row).cell? column = (row.cell? column).map (replace ⟨column + 1, index + 1⟩))
    (place : Position) : after.cell? place = (before.cell? place).map (replace place) := by
  by_cases positive : place.Positive
  · have same : (⟨place.columnIndex + 1, place.rowIndex + 1⟩ : Position) = place := by
      rw [positive.columnIndex_add_one, positive.rowIndex_add_one]
    rw [cell?_of_positive _ positive, cell?_of_positive _ positive, rows]
    cases before.rows[place.rowIndex]? with
    | none => rfl
    | some row =>
      rw [Option.map_some, Option.bind_some, Option.bind_some, cells, same]
  · rw [cell?_of_not_positive _ positive, cell?_of_not_positive _ positive]
    rfl

theorem cell?_write (screen : Screen width) {position : Position} (positive : position.Positive)
    (cell : Cell) (place : Position) :
    (screen.write position cell).cell? place
      = ((screen.touch position.row).cell? place).map fun old =>
          if place = position then cell else old := by
  apply cell?_of_changed
    (fun index row => if position.rowIndex = index then row.set position.columnIndex cell else row)
    (fun place old => if place = position then cell else old)
  · intro index
    rw [write, getElem?_rows_modifyRow]
    split <;> simp
  · intro index row column
    obtain ⟨columnPositive, rowPositive⟩ := positive
    obtain ⟨positionColumn, positionRow⟩ := position
    simp only [Position.columnIndex, Position.rowIndex, Position.mk.injEq] at *
    by_cases sameRow : positionRow - 1 = index
    · have sameRow' : index + 1 = positionRow := by omega
      have column_iff : column = positionColumn - 1 ↔ column + 1 = positionColumn := by omega
      simp only [sameRow, ↓reduceIte, Row.cell?_set_eq_map, column_iff, sameRow', and_true]
    · have otherRow : index + 1 ≠ positionRow := by omega
      simp [sameRow, otherRow]

/-- Writing replaces the cell at its place and no other. -/
theorem seen_write (screen : Screen width) {position : Position} (positive : position.Positive)
    (within : position.column ≤ width) (cell : Cell) (place : Position) :
    (screen.write position cell).seen place
      = if place = position then cell else screen.seen place := by
  rw [seen, cell?_write screen positive]
  split
  · next same =>
    -- The screen has grown to the row, so there is a cell to replace.
    have inside : 1 ≤ place.row ∧ place.row ≤ (screen.touch position.row).height
        ∧ 1 ≤ place.column ∧ place.column ≤ width := by
      rw [same, height_touch]
      exact ⟨positive.row, Nat.le_max_right _ _, positive.column, within⟩
    rw [cell?_eq_seen, if_pos inside]
    rfl
  · rw [Option.map_id', ← seen, seen_touch]

/-! ## Erasing -/

/-- A change that blanks the places it covers, seen from a place. -/
theorem seen_of_erased {before after : Screen width} (change : Nat → Row width → Row width)
    (covers : Position → Bool)
    (rows : ∀ index, after.rows[index]? = before.rows[index]?.map (change index))
    (cells : ∀ index row column, (change index row).cell? column
      = (row.cell? column).map fun old => if covers ⟨column + 1, index + 1⟩ then .blank else old)
    (place : Position) :
    after.seen place = if covers place then .blank else before.seen place := by
  have changed := cell?_of_changed change
    (fun place old => if covers place then .blank else old) rows cells place
  rw [seen, seen, changed]
  cases before.cell? place with
  | none => simp
  | some old => rfl

theorem cell?_blank_eq_map (row : Row width) (column : Nat) :
    (Row.blank width).cell? column = (row.cell? column).map fun _ => .blank := by
  rw [Row.cell?_blank]
  by_cases inside : column < width
  · simp [inside, Row.cell?]
  · simp [inside, Row.cell?]

theorem seen_eraseToEnd (screen : Screen width) {cursor : Position} (positive : cursor.Positive)
    (place : Position) :
    (screen.eraseToEnd cursor).seen place
      = if DisplayErase.toEnd.covers cursor place then .blank else screen.seen place := by
  apply seen_of_erased
    (fun index row =>
      if index < cursor.rowIndex then row
      else if index = cursor.rowIndex then row.erase cursor.columnIndex .toEnd
      else .blank width)
    (DisplayErase.toEnd.covers cursor)
  · intro index
    rw [eraseToEnd, Array.getElem?_mapIdx]
  · intro index row column
    have rowIndex := positive.rowIndex_add_one
    -- Rows above are kept, the row of the cursor is erased in part, rows below are blank.
    rcases Nat.lt_trichotomy index cursor.rowIndex with above | same | below
    · have notBelow : ¬ cursor.row < index + 1 := by omega
      have notSame : index + 1 ≠ cursor.row := by omega
      simp [DisplayErase.covers, above, notBelow, notSame]
    · have notAbove : ¬ index < cursor.rowIndex := by omega
      have sameRow : index + 1 = cursor.row := by omega
      rw [if_neg notAbove, if_pos same, row.cell?_erase _ _ _ cursor.row,
        positive.columnIndex_add_one]
      simp [LineErase.covers, DisplayErase.covers, sameRow]
    · have notAbove : ¬ index < cursor.rowIndex := by omega
      have notSame : index ≠ cursor.rowIndex := by omega
      have under : cursor.row < index + 1 := by omega
      rw [if_neg notAbove, if_neg notSame, cell?_blank_eq_map row column]
      simp [DisplayErase.covers, under]

theorem seen_eraseToStart (screen : Screen width) {cursor : Position} (positive : cursor.Positive)
    (place : Position) :
    (screen.eraseToStart cursor).seen place
      = if DisplayErase.toStart.covers cursor place then .blank else screen.seen place := by
  apply seen_of_erased
    (fun index row =>
      if index < cursor.rowIndex then .blank width
      else if index = cursor.rowIndex then row.erase cursor.columnIndex .toStart
      else row)
    (DisplayErase.toStart.covers cursor)
  · intro index
    rw [eraseToStart, Array.getElem?_mapIdx]
  · intro index row column
    have rowIndex := positive.rowIndex_add_one
    -- The other way round: blank above, kept below.
    rcases Nat.lt_trichotomy index cursor.rowIndex with above | same | below
    · have aboveRow : index + 1 < cursor.row := by omega
      rw [if_pos above, cell?_blank_eq_map row column]
      simp [DisplayErase.covers, aboveRow]
    · have notAbove : ¬ index < cursor.rowIndex := by omega
      have sameRow : index + 1 = cursor.row := by omega
      rw [if_neg notAbove, if_pos same, row.cell?_erase _ _ _ cursor.row,
        positive.columnIndex_add_one]
      simp [LineErase.covers, DisplayErase.covers, sameRow]
    · have notAbove : ¬ index < cursor.rowIndex := by omega
      have notSame : index ≠ cursor.rowIndex := by omega
      have notOver : ¬ index + 1 < cursor.row := by omega
      have otherRow : index + 1 ≠ cursor.row := by omega
      rw [if_neg notAbove, if_neg notSame]
      simp [DisplayErase.covers, notOver, otherRow]

theorem seen_eraseAll (screen : Screen width) (place : Position) :
    screen.eraseAll.seen place = .blank := by
  have rows (index : Nat) :
      screen.eraseAll.rows[index]? = screen.rows[index]?.map fun _ => .blank width := by
    rw [eraseAll, Array.getElem?_replicate, height]
    split
    · next inside => rw [Array.getElem?_eq_getElem inside, Option.map_some]
    · next outside => rw [Array.getElem?_eq_none (Nat.not_lt.mp outside), Option.map_none]
  rw [seen_of_erased (fun _ _ => .blank width) (fun _ => true) rows
    (fun _ row column => cell?_blank_eq_map row column) place, if_pos rfl]

theorem seen_blank (place : Position) : (blank width).seen place = .blank :=
  seen_eraseAll (blank width) place

theorem seen_eraseLine (screen : Screen width) {cursor : Position} (positive : cursor.Positive)
    (extent : LineErase) (place : Position) :
    (screen.eraseLine cursor extent).seen place
      = if extent.covers cursor place then .blank else screen.seen place := by
  apply seen_of_erased
    (fun index row =>
      if cursor.rowIndex = index then row.erase cursor.columnIndex extent else row)
    (extent.covers cursor)
  · intro index
    rw [eraseLine, getElem?_rows_modifyRow]
    split <;> simp
  · intro index row column
    have rowIndex := positive.rowIndex_add_one
    by_cases same : cursor.rowIndex = index
    · have sameRow : index + 1 = cursor.row := by omega
      rw [if_pos same, row.cell?_erase _ _ _ cursor.row, positive.columnIndex_add_one, sameRow]
    · have otherRow : index + 1 ≠ cursor.row := by omega
      rw [if_neg same]
      cases extent <;> simp [LineErase.covers, otherRow]

end Screen

end AnsiCanvas
