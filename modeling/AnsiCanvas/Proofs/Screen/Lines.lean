import AnsiCanvas.Charset
import AnsiCanvas.Proofs.Screen.Advance
import Mathlib.Data.List.GetD

/-! # Lines on a screen

Where the bytes of plain lines lie when each line is written on across the rows and the next one
begins below.  A line goes on in the next row as soon as a row is full, also if nothing is left of
it.  So a line takes one row more than full rows, and one that ends at the edge takes an empty row.

A page is written byte by byte: either the last line becomes longer, or an empty line is added.
Both leave what has been written where it was.
-/

namespace AnsiCanvas.Layout

variable {width : Nat}

/-- The place of a byte of a line, counted from zero, when the line begins in row `first`. -/
def place (width first index : Nat) : Position := ⟨index % width + 1, first + index / width⟩

/-- The row in which a line begins.  Each line begins in the row after the one in which the line
    before it ended. -/
def firstRow (width : Nat) (lines : List (List UInt8)) : Nat → Nat
  | 0 => 1
  | number + 1 => firstRow width lines number + (lines.getD number []).length / width + 1

/-- The row in which the cursor is at the end of a line. -/
def lastRow (width : Nat) (lines : List (List UInt8)) (number : Nat) : Nat :=
  firstRow width lines number + (lines.getD number []).length / width

/-! ## Places in a line -/

theorem place_inj {first index other : Nat} :
    place width first index = place width first other ↔ index = other := by
  constructor
  · intro same
    obtain ⟨column, row⟩ := (Position.mk.injEq _ _ _ _).mp same
    rw [← Nat.div_add_mod index width, ← Nat.div_add_mod other width,
      Nat.add_left_cancel row, Nat.add_right_cancel column]
  · rintro rfl
    rfl

theorem place_positive {first : Nat} (counted : 1 ≤ first) (index : Nat) :
    (place width first index).Positive :=
  ⟨Nat.le_add_left 1 _, Nat.le_trans counted (Nat.le_add_right _ _)⟩

theorem place_column_le (nonempty : 0 < width) (first index : Nat) :
    (place width first index).column ≤ width :=
  Nat.mod_lt index nonempty

theorem address_place {first : Nat} (counted : 1 ≤ first) (index : Nat) :
    (place width first index).address width = (first - 1) * width + index := by
  have rows : first + index / width - 1 = first - 1 + index / width :=
    Nat.sub_add_comm counted
  simp only [Position.address, Position.rowIndex, Position.columnIndex, place,
    Nat.add_sub_cancel, rows]
  rw [Nat.add_mul, Nat.add_assoc, Nat.div_add_mod']

/-- Going on from a byte leads to the place of the next one. -/
theorem next_place (nonempty : 0 < width) {first : Nat} (counted : 1 ≤ first) {index : Nat}
    (row : first + (index + 1) / width ≤ Count.largest)
    (addressed : (first + (index + 1) / width) * width ≤ Count.largest + 1) :
    (place width first index).next? width = some (place width first (index + 1)) := by
  have room : (place width first index).address width + 1 ≤ Count.largest := by
    rw [address_place counted]
    have full : index + 1 < (index + 1) / width * width + width := by
      have := Nat.div_add_mod' (index + 1) width
      have := Nat.mod_lt (index + 1) nonempty
      omega
    have split : (first + (index + 1) / width) * width
        = (first - 1) * width + width + (index + 1) / width * width := by
      rw [Nat.add_mul, ← Nat.succ_mul, Nat.succ_eq_add_one, Nat.sub_add_cancel counted]
    omega
  have exists_next : ∃ next, (place width first index).next? width = some next := by
    rw [← Option.isSome_iff_exists, Position.isSome_next?_iff nonempty]
    rcases Nat.lt_or_ge 1 width with wide | narrow
    · exact .inl wide
    · obtain rfl : width = 1 := Nat.le_antisymm narrow nonempty
      rw [address_place counted]
      omega
  obtain ⟨next, onward⟩ := exists_next
  rw [onward, Option.some_inj]
  refine ((Position.eq_next_iff nonempty onward room).mpr ⟨place_positive counted _,
    place_column_le nonempty first _, ?_⟩).symm
  rw [address_place counted, address_place counted, Nat.add_assoc]

/-! ## Rows of lines -/

theorem firstRow_succ (lines : List (List UInt8)) (number : Nat) :
    firstRow width lines (number + 1) = lastRow width lines number + 1 := rfl

theorem one_le_firstRow (lines : List (List UInt8)) (number : Nat) :
    1 ≤ firstRow width lines number := by
  cases number with
  | zero => exact Nat.le_refl 1
  | succ number => exact Nat.le_add_left 1 _

theorem lastRow_lt_firstRow (lines : List (List UInt8)) {first second : Nat}
    (before : first < second) : lastRow width lines first < firstRow width lines second := by
  induction before with
  | refl => exact Nat.lt_succ_self _
  | @step second _ ih =>
    refine Nat.lt_succ_of_le (Nat.le_trans (Nat.le_of_lt ih) ?_)
    exact Nat.le_add_right _ _

theorem firstRow_succ_le (lines : List (List UInt8)) {first second : Nat}
    (before : first < second) : firstRow width lines (first + 1) ≤ lastRow width lines second :=
  Nat.le_trans (lastRow_lt_firstRow lines before) (Nat.le_add_right _ _)

theorem lastRow_le (lines : List (List UInt8)) {first second : Nat} (before : first ≤ second) :
    lastRow width lines first ≤ lastRow width lines second := by
  rcases Nat.eq_or_lt_of_le before with rfl | before
  · exact Nat.le_refl _
  · exact Nat.le_of_succ_le (firstRow_succ_le lines before)

/-- The lines before a line decide where it begins. -/
theorem firstRow_append (lines more : List (List UInt8)) {number : Nat}
    (within : number ≤ lines.length) :
    firstRow width (lines ++ more) number = firstRow width lines number := by
  induction number with
  | zero => rfl
  | succ number ih =>
    have line : (lines ++ more).getD number [] = lines.getD number [] :=
      List.getD_append _ _ _ _ within
    rw [firstRow, firstRow, ih (Nat.le_of_succ_le within), line]

theorem lastRow_concat (lines : List (List UInt8)) (line : List UInt8) :
    lastRow width (lines ++ [line]) lines.length
      = firstRow width lines lines.length + line.length / width := by
  rw [lastRow, firstRow_append lines [line] (Nat.le_refl _), List.getD_eq_getElem?_getD,
    List.getElem?_concat_length, Option.getD_some]

/-- Every byte of a line is in a row of its line. -/
theorem row_place_le {lines : List (List UInt8)} {number index : Nat} {bytes : List UInt8}
    (isLine : lines[number]? = some bytes) (within : index < bytes.length) :
    (place width (firstRow width lines number) index).row ≤ lastRow width lines number := by
  rw [lastRow, List.getD_eq_getElem?_getD, isLine, Option.getD_some]
  exact Nat.add_le_add_left (Nat.div_le_div_right (Nat.le_of_lt within)) _

/-- A line that ends at the edge ends in the row after those that it fills. -/
theorem lastRow_of_full (nonempty : 0 < width) {lines : List (List UInt8)} {bytes : List UInt8}
    {number full : Nat} (isLine : lines[number]? = some bytes)
    (edge : bytes.length = full * width) :
    lastRow width lines number = firstRow width lines number + full := by
  rw [lastRow, List.getD_eq_getElem?_getD, isLine, Option.getD_some, edge,
    Nat.mul_div_cancel full nonempty]

/-- There is room for a number of rows.  The row limit does not cut them off, and the rows and the
    addresses of their cells, counted from zero, are 64-bit counts. -/
structure Fits (limit width rows : Nat) : Prop where
  unlimited : limit = 0 ∨ rows ≤ limit
  counted : rows ≤ Count.largest
  addressed : rows * width ≤ Count.largest + 1

theorem Fits.of_le {limit fewer rows : Nat} (fits : Fits limit width rows) (le : fewer ≤ rows) :
    Fits limit width fewer where
  unlimited := fits.unlimited.imp_right (Nat.le_trans le)
  counted := Nat.le_trans le fits.counted
  addressed := Nat.le_trans (Nat.mul_le_mul_right width le) fits.addressed

/-! ## What lies where -/

/-- A byte of the lines lies at a place. -/
def Puts (width : Nat) (lines : List (List UInt8)) (spot : Position) (byte : UInt8) : Prop :=
  ∃ number bytes index, lines[number]? = some bytes ∧ bytes[index]? = some byte
    ∧ spot = place width (firstRow width lines number) index

variable {lines : List (List UInt8)} {last : List UInt8} {spot : Position} {byte other : UInt8}

theorem Puts.positive (puts : Puts width lines spot byte) : spot.Positive := by
  obtain ⟨number, found, index, -, -, rfl⟩ := puts
  exact place_positive (one_le_firstRow lines number) index

theorem Puts.column_le (nonempty : 0 < width) (puts : Puts width lines spot byte) :
    spot.column ≤ width := by
  obtain ⟨number, found, index, -, -, rfl⟩ := puts
  exact place_column_le nonempty _ index

theorem Puts.row_le (puts : Puts width lines spot byte) :
    spot.row ≤ lastRow width lines (lines.length - 1) := by
  obtain ⟨number, found, index, isLine, isByte, rfl⟩ := puts
  obtain ⟨before, -⟩ := List.getElem?_eq_some_iff.mp isLine
  obtain ⟨within, -⟩ := List.getElem?_eq_some_iff.mp isByte
  exact Nat.le_trans (row_place_le isLine within) (lastRow_le lines (Nat.le_sub_one_of_lt before))

theorem puts_concat_iff :
    Puts width (lines ++ [last]) spot byte
      ↔ Puts width lines spot byte
        ∨ ∃ index, last[index]? = some byte
            ∧ spot = place width (firstRow width lines lines.length) index := by
  constructor
  · rintro ⟨number, found, index, isLine, isByte, rfl⟩
    rcases Nat.lt_trichotomy number lines.length with before | rfl | beyond
    · rw [List.getElem?_append_left before] at isLine
      rw [firstRow_append lines [last] (Nat.le_of_lt before)]
      exact .inl ⟨number, found, index, isLine, isByte, rfl⟩
    · rw [List.getElem?_concat_length] at isLine
      obtain rfl := Option.some.inj isLine
      rw [firstRow_append lines [last] (Nat.le_refl _)]
      exact .inr ⟨index, isByte, rfl⟩
    · rw [List.getElem?_eq_none (by rw [List.length_append]; exact beyond)] at isLine
      cases isLine
  · rintro (⟨number, found, index, isLine, isByte, rfl⟩ | ⟨index, isByte, rfl⟩)
    · obtain ⟨before, -⟩ := List.getElem?_eq_some_iff.mp isLine
      refine ⟨number, found, index, ?_, isByte, ?_⟩
      · rw [List.getElem?_append_left before, isLine]
      · rw [firstRow_append lines [last] (Nat.le_of_lt before)]
    · refine ⟨lines.length, last, index, List.getElem?_concat_length, isByte, ?_⟩
      rw [firstRow_append lines [last] (Nat.le_refl _)]

theorem puts_concat_nil_iff :
    Puts width (lines ++ [[]]) spot byte ↔ Puts width lines spot byte := by
  simp [puts_concat_iff]

theorem puts_concat_push_iff :
    Puts width (lines ++ [last ++ [other]]) spot byte
      ↔ Puts width (lines ++ [last]) spot byte
        ∨ byte = other
          ∧ spot = place width (firstRow width lines lines.length) last.length := by
  rw [puts_concat_iff, puts_concat_iff, or_assoc]
  refine or_congr_right ⟨?_, ?_⟩
  · rintro ⟨index, isByte, rfl⟩
    rw [List.getElem?_append] at isByte
    split at isByte
    · exact .inl ⟨index, isByte, rfl⟩
    · next beyond =>
      rw [List.getElem?_singleton] at isByte
      split at isByte
      · obtain rfl : index = last.length := by omega
        exact .inr ⟨(Option.some.inj isByte).symm, rfl⟩
      · cases isByte
  · rintro (⟨index, isByte, rfl⟩ | ⟨rfl, rfl⟩)
    · obtain ⟨within, -⟩ := List.getElem?_eq_some_iff.mp isByte
      exact ⟨index, by rw [List.getElem?_append_left within, isByte], rfl⟩
    · exact ⟨last.length, List.getElem?_concat_length, rfl⟩

/-- Where a line is written on there is nothing yet. -/
theorem not_puts_end :
    ¬ Puts width (lines ++ [last])
      (place width (firstRow width lines lines.length) last.length) byte := by
  rw [puts_concat_iff]
  rintro (⟨number, found, index, isLine, isByte, same⟩ | ⟨index, isByte, same⟩)
  · -- The lines before end above.
    obtain ⟨before, -⟩ := List.getElem?_eq_some_iff.mp isLine
    obtain ⟨within, -⟩ := List.getElem?_eq_some_iff.mp isByte
    have earlier : (place width (firstRow width lines number) index).row
        < (place width (firstRow width lines lines.length) last.length).row :=
      calc (place width (firstRow width lines number) index).row
          ≤ lastRow width lines number := row_place_le isLine within
        _ < firstRow width lines lines.length := lastRow_lt_firstRow lines before
        _ ≤ firstRow width lines lines.length + last.length / width := Nat.le_add_right _ _
    exact absurd (congrArg Position.row same) (Nat.ne_of_gt earlier)
  · obtain ⟨within, -⟩ := List.getElem?_eq_some_iff.mp isByte
    rw [place_inj] at same
    omega

/-- A line that ends at the edge leaves the row in which it ends empty. -/
theorem row_ne_of_full (nonempty : 0 < width) {number full : Nat} {bytes : List UInt8}
    (isLine : lines[number]? = some bytes) (edge : bytes.length = full * width)
    (puts : Puts width lines spot byte) : spot.row ≠ firstRow width lines number + full := by
  rw [← lastRow_of_full nonempty isLine edge]
  obtain ⟨other, found, index, isOther, isByte, rfl⟩ := puts
  obtain ⟨within, -⟩ := List.getElem?_eq_some_iff.mp isByte
  have low : (place width (firstRow width lines other) index).row ≤ lastRow width lines other :=
    row_place_le isOther within
  rcases Nat.lt_trichotomy other number with before | rfl | beyond
  · exact Nat.ne_of_lt (Nat.lt_of_lt_of_le (Nat.lt_succ_of_le low) (firstRow_succ_le lines before))
  · obtain rfl := Option.some.inj (isLine.symm.trans isOther)
    have row : index / width < full := Nat.div_lt_of_lt_mul (by rwa [Nat.mul_comm, ← edge])
    rw [lastRow_of_full nonempty isLine edge]
    exact Nat.ne_of_lt (Nat.add_lt_add_left row _)
  · exact Nat.ne_of_gt (Nat.lt_add_right _ (lastRow_lt_firstRow lines beyond))

/-- The bytes of the lines are drawn with the default pen where they lie, and all else is blank. -/
structure Shows (width : Nat) (lines : List (List UInt8)) (cells : Position → Cell) : Prop where
  drawn : ∀ spot byte, Puts width lines spot byte → cells spot = .draw (Charset.glyph byte) {}
  blank : ∀ spot, (∀ byte, ¬ Puts width lines spot byte) → cells spot = .blank

variable {cells : Position → Cell}

theorem Shows.concat_nil (shows : Shows width lines cells) :
    Shows width (lines ++ [[]]) cells := by
  constructor
  · intro spot byte puts
    exact shows.drawn spot byte (puts_concat_nil_iff.mp puts)
  · intro spot empty
    exact shows.blank spot fun byte puts => empty byte (puts_concat_nil_iff.mpr puts)

theorem Shows.push (shows : Shows width (lines ++ [last]) cells) (byte : UInt8) :
    Shows width (lines ++ [last ++ [byte]]) fun spot =>
      if spot = place width (firstRow width lines lines.length) last.length then
        .draw (Charset.glyph byte) {}
      else
        cells spot := by
  constructor
  · intro spot drawn puts
    rcases puts_concat_push_iff.mp puts with old | ⟨rfl, new⟩
    · have apart : spot ≠ place width (firstRow width lines lines.length) last.length := by
        rintro rfl
        exact not_puts_end old
      rw [if_neg apart]
      exact shows.drawn spot drawn old
    · rw [if_pos new]
  · intro spot empty
    have apart : spot ≠ place width (firstRow width lines lines.length) last.length :=
      fun new => empty byte (puts_concat_push_iff.mpr (.inr ⟨rfl, new⟩))
    rw [if_neg apart]
    exact shows.blank spot fun drawn old =>
      empty drawn (puts_concat_push_iff.mpr (.inl old))

end AnsiCanvas.Layout
