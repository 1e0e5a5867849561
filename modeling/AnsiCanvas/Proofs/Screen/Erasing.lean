import AnsiCanvas.Proofs.Screen.Effective
import Mathlib.Data.Prod.Lex

/-! # What erasing clears

Places are ordered as they are read, by row and then by column.  Erasing to the end clears the
places from the cursor on, erasing to the start those up to it, and erasing in a row those of the
two that are in the row of the cursor.  Wherever the cursor may be, no other cell changes and the
screen keeps its size; a coordinate of zero counts as one.
-/

namespace AnsiCanvas

variable {width : Nat}

namespace Position

/-- The key of a position in reading order. -/
def reading (position : Position) : Nat ×ₗ Nat := toLex (position.row, position.column)

theorem reading_le_iff {first second : Position} :
    first.reading ≤ second.reading
      ↔ first.row < second.row ∨ first.row = second.row ∧ first.column ≤ second.column :=
  Prod.Lex.toLex_le_toLex

theorem reading_injective : Function.Injective reading := by
  rintro ⟨column, row⟩ ⟨otherColumn, otherRow⟩ same
  obtain ⟨rfl, rfl⟩ := Prod.mk.inj (toLex.injective same)
  rfl

/-- The position with a zero counting as one. -/
def raised (position : Position) : Position := ofCoordinates position.column position.row

theorem raised_positive (position : Position) : position.raised.Positive :=
  ⟨Nat.le_max_right _ _, Nat.le_max_right _ _⟩

theorem columnIndex_raised (position : Position) :
    position.raised.columnIndex = position.columnIndex := by
  simp only [raised, ofCoordinates, columnIndex]
  omega

theorem rowIndex_raised (position : Position) : position.raised.rowIndex = position.rowIndex := by
  simp only [raised, ofCoordinates, rowIndex]
  omega

end Position

namespace Screen

/-- One screen is the other with exactly the places of a region cleared. -/
structure Clears (region : Position → Prop) (before after : Screen width) : Prop where
  height : after.height = before.height
  inside : ∀ place cell, before.cell? place = some cell → region place →
    after.cell? place = some .blank
  outside : ∀ place cell, before.cell? place = some cell → ¬ region place →
    after.cell? place = some cell
  absent : ∀ place, before.cell? place = none → after.cell? place = none

namespace Clears

variable {region other : Position → Prop} {before middle after : Screen width}

theorem of_seen (covers : Position → Bool) (height : after.height = before.height)
    (seen : ∀ place, after.seen place = if covers place then .blank else before.seen place)
    (same : ∀ place, covers place = true ↔ region place) : Clears region before after := by
  have found (place : Position) : after.cell? place
      = (before.cell? place).map fun cell => if covers place then .blank else cell := by
    rw [cell?_eq_seen, cell?_eq_seen, height, seen]
    split <;> rfl
  refine ⟨height, ?_, ?_, ?_⟩
  · intro place cell present covered
    rw [found, present, Option.map_some, if_pos ((same place).mpr covered)]
  · intro place cell present apart
    rw [found, present, Option.map_some, if_neg fun covered => apart ((same place).mp covered)]
  · intro place missing
    rw [found, missing, Option.map_none]

theorem trans (first : Clears region before middle) (second : Clears other middle after) :
    Clears (fun place => region place ∨ other place) before after := by
  refine ⟨second.height.trans first.height, ?_, ?_, ?_⟩
  · intro place cell present covered
    by_cases again : other place
    · by_cases already : region place
      · exact second.inside place _ (first.inside place cell present already) again
      · exact second.inside place _ (first.outside place cell present already) again
    · have already : region place := covered.resolve_right again
      exact second.outside place _ (first.inside place cell present already) again
  · intro place cell present apart
    have kept := first.outside place cell present fun covered => apart (.inl covered)
    exact second.outside place cell kept fun covered => apart (.inr covered)
  · exact fun place missing => second.absent place (first.absent place missing)

/-- A region and a screen determine what is left. -/
theorem unique {left right : Screen width} (one : Clears region before left)
    (another : Clears other before right) (same : ∀ place, region place ↔ other place) :
    left = right := by
  apply ext_cell? (one.height.trans another.height.symm)
  intro place
  cases present : before.cell? place with
  | none => rw [one.absent place present, another.absent place present]
  | some cell =>
    by_cases covered : region place
    · rw [one.inside place cell present covered,
        another.inside place cell present ((same place).mp covered)]
    · rw [one.outside place cell present covered,
        another.outside place cell present fun also => covered ((same place).mpr also)]

/-- A cell that has changed was in the region. -/
theorem mem_of_ne (clears : Clears region before after) {place : Position} {cell : Cell}
    (present : before.cell? place = some cell) (changed : after.cell? place ≠ some cell) :
    region place :=
  Classical.byContradiction fun apart => changed (clears.outside place cell present apart)

end Clears

section

variable (screen : Screen width) (position : Position)

/-! ## A zero counts as one -/

theorem eraseToEnd_raised : screen.eraseToEnd position.raised = screen.eraseToEnd position := by
  simp only [eraseToEnd, Position.rowIndex_raised, Position.columnIndex_raised]

theorem eraseToStart_raised :
    screen.eraseToStart position.raised = screen.eraseToStart position := by
  simp only [eraseToStart, Position.rowIndex_raised, Position.columnIndex_raised]

theorem eraseLine_raised (extent : LineErase) :
    screen.eraseLine position.raised extent = screen.eraseLine position extent := by
  simp only [eraseLine, Position.rowIndex_raised, Position.columnIndex_raised]

/-! ## The regions -/

theorem eraseToEnd_clears :
    Clears (fun place => position.raised.reading ≤ place.reading) screen
      (screen.eraseToEnd position) := by
  refine .of_seen (DisplayErase.toEnd.covers position.raised) (screen.height_eraseToEnd position)
    (fun place => ?_) (fun place => ?_)
  · rw [← eraseToEnd_raised]
    exact seen_eraseToEnd screen position.raised_positive place
  · rw [Position.reading_le_iff, DisplayErase.covers, decide_eq_true_eq, eq_comm]

theorem eraseToStart_clears :
    Clears (fun place => place.reading ≤ position.raised.reading) screen
      (screen.eraseToStart position) := by
  refine .of_seen (DisplayErase.toStart.covers position.raised)
    (screen.height_eraseToStart position) (fun place => ?_) (fun place => ?_)
  · rw [← eraseToStart_raised]
    exact seen_eraseToStart screen position.raised_positive place
  · rw [Position.reading_le_iff, DisplayErase.covers, decide_eq_true_eq]

theorem eraseLine_clears (extent : LineErase) {region : Position → Prop}
    (same : ∀ place, extent.covers position.raised place = true ↔ region place) :
    Clears region screen (screen.eraseLine position extent) := by
  refine .of_seen (extent.covers position.raised) (screen.height_eraseLine position extent)
    (fun place => ?_) same
  rw [← eraseLine_raised]
  exact seen_eraseLine screen position.raised_positive extent place

theorem eraseAll_clears : Clears (fun _ => True) screen screen.eraseAll :=
  .of_seen (fun _ => true) screen.height_eraseAll (fun place => seen_eraseAll screen place)
    (fun _ => iff_of_true rfl trivial)

/-- Every erasing clears exactly its region.  To the end of the screen these are the places from
    the cursor on in reading order, to its start those up to the cursor, in a row those of the row
    of the cursor from its column on, up to it, or all, and of the whole screen all there are.  All
    other cells stay, and so does the size of the screen, for every position whatsoever, a zero
    counting as one.  So erasing to the end and to the start, one after the other, is erasing all,
    and no cell but that of the cursor is changed by both. -/
theorem erase_clears_region :
    Clears (fun place => position.raised.reading ≤ place.reading) screen
        (screen.eraseToEnd position)
      ∧ Clears (fun place => place.reading ≤ position.raised.reading) screen
          (screen.eraseToStart position)
      ∧ Clears (fun place => place.row = position.raised.row
            ∧ position.raised.column ≤ place.column) screen (screen.eraseLine position .toEnd)
      ∧ Clears (fun place => place.row = position.raised.row
            ∧ place.column ≤ position.raised.column) screen (screen.eraseLine position .toStart)
      ∧ Clears (fun place => place.row = position.raised.row) screen
          (screen.eraseLine position .all)
      ∧ Clears (fun _ => True) screen screen.eraseAll
      ∧ (screen.eraseToEnd position).eraseToStart position = screen.eraseAll
      ∧ (screen.eraseToStart position).eraseToEnd position = screen.eraseAll
      ∧ ∀ place cell, screen.cell? place = some cell →
          (screen.eraseToEnd position).cell? place ≠ some cell →
          (screen.eraseToStart position).cell? place ≠ some cell → place = position.raised := by
  have toEnd := eraseToEnd_clears screen position
  have toStart := eraseToStart_clears screen position
  have all := eraseAll_clears screen
  refine ⟨toEnd, toStart, eraseLine_clears screen position .toEnd fun _ => decide_eq_true_iff,
    eraseLine_clears screen position .toStart fun _ => decide_eq_true_iff,
    eraseLine_clears screen position .all fun _ => decide_eq_true_iff, all, ?_, ?_, ?_⟩
  · refine (toEnd.trans (eraseToStart_clears _ position)).unique all fun place => ?_
    exact iff_of_true (le_total _ _) trivial
  · refine (toStart.trans (eraseToEnd_clears _ position)).unique all fun place => ?_
    exact iff_of_true (le_total _ _) trivial
  · intro place cell present changed again
    have before := toEnd.mem_of_ne present changed
    have after := toStart.mem_of_ne present again
    exact Position.reading_injective (le_antisymm after before)

end

end Screen

end AnsiCanvas
