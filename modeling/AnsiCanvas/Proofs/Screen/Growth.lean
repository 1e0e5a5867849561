import AnsiCanvas.Proofs.Canvas.Strokes

/-! # Screens that only grow

A screen starts as one row and is changed by drawing, by growing down to a row, by going on to the
next position and by erasing.  None of this ever takes a row away, so the screen has a row at all
times and everything that adds rows can count on those there are: it adds blank rows below them
and keeps every cell.
-/

namespace AnsiCanvas

variable {width : Nat}

namespace Position

theorem fault?_eq_none_iff {position : Position} :
    position.fault? width = none ↔ position.Positive ∧ position.column ≤ width := by
  rw [fault?]
  constructor
  · intro none
    split at none
    · cases none
    · next counted =>
      split at none
      · cases none
      · next within => exact ⟨⟨by omega, by omega⟩, Nat.not_lt.mp within⟩
  · rintro ⟨⟨column, row⟩, within⟩
    rw [if_neg (by omega), if_neg (by omega)]

theorem fault?_eq_some_iff {position : Position} {fault : PositionError} :
    position.fault? width = some fault
      ↔ (position.column = 0 ∨ position.row = 0) ∧ fault = .zero position.column position.row
        ∨ ¬ (position.column = 0 ∨ position.row = 0) ∧ width < position.column
          ∧ fault = .beyondWidth position.column position.row width := by
  rw [fault?]
  by_cases zero : position.column = 0 ∨ position.row = 0
  · simp [zero, eq_comm]
  · by_cases beyond : width < position.column
    · simp [zero, beyond, eq_comm]
    · simp [zero, beyond]

end Position

namespace Screen

/-- One screen goes on from another.  Apart from some places the cells there were are kept, and
    those that are new are blank. -/
structure Continues (apart : Position → Prop) (before after : Screen width) : Prop where
  kept : ∀ place cell, ¬ apart place → before.cell? place = some cell →
    after.cell? place = some cell
  added : ∀ place cell, ¬ apart place → before.cell? place = none →
    after.cell? place = some cell → cell = .blank

theorem Continues.of_seen {apart : Position → Prop} {before after : Screen width}
    (height : before.height ≤ after.height)
    (seen : ∀ place, ¬ apart place → after.seen place = before.seen place) :
    Continues apart before after := by
  constructor
  · intro place cell other found
    obtain ⟨-, rfl⟩ := seen_of_cell? found
    rw [cell?_eq_seen] at found ⊢
    split at found
    · next inside =>
      obtain ⟨row, below, column⟩ := inside
      rw [if_pos ⟨row, Nat.le_trans below height, column⟩, seen place other]
    · cases found
  · intro place cell other missing found
    obtain ⟨-, rfl⟩ := seen_of_cell? found
    rw [seen place other, Screen.seen, missing, Option.getD_none]

theorem height_le_touch (screen : Screen width) (number : Nat) :
    screen.height ≤ (screen.touch number).height := by
  rw [height_touch]
  exact Nat.le_max_left _ _

theorem touch_continues (screen : Screen width) (number : Nat) :
    Continues (fun _ => False) screen (screen.touch number) :=
  .of_seen (screen.height_le_touch number) fun place _ => seen_touch screen number place

/-! ## Drawing -/

section

variable (screen : Screen width) {position : Position} (character : Char) (pen : Pen)

theorem put_of_fault {fault : PositionError} (found : position.fault? width = some fault) :
    screen.put position character pen = (screen, some fault) := by
  rw [put, found]

theorem height_le_write (cell : Cell) : screen.height ≤ (screen.write position cell).height := by
  rw [height_write]
  exact Nat.le_max_left _ _

theorem cell?_write_self (positive : position.Positive) (within : position.column ≤ width)
    (cell : Cell) : (screen.write position cell).cell? position = some cell := by
  have inside : position.row ≤ (screen.write position cell).height := by
    rw [height_write]
    exact Nat.le_max_right _ _
  rw [cell?_eq_seen, if_pos ⟨positive.row, inside, positive.column, within⟩,
    seen_write screen positive within, if_pos rfl]

theorem write_continues (positive : position.Positive) (within : position.column ≤ width)
    (cell : Cell) : Continues (· = position) screen (screen.write position cell) := by
  refine .of_seen (screen.height_le_write cell) fun place other => ?_
  rw [seen_write screen positive within, if_neg other]

end

/-! ## Runs of operations -/

/-- The operations that can change a screen.  All others only look at it. -/
inductive Operation
  | touch (number : Nat)
  | put (position : Position) (character : Char) (pen : Pen)
  | moveTo (column row : Nat)
  | advance (position : Position) (limit : Nat)
  | eraseToEnd (position : Position)
  | eraseToStart (position : Position)
  | eraseLine (position : Position) (extent : LineErase)
  | eraseAll
  deriving DecidableEq, Repr

def apply (screen : Screen width) : Operation → Screen width
  | .touch number => screen.touch number
  | .put position character pen => (screen.put position character pen).1
  | .moveTo column row => (screen.moveTo column row).1
  | .advance position limit => ((screen.advance? position limit).map Prod.fst).getD screen
  | .eraseToEnd position => screen.eraseToEnd position
  | .eraseToStart position => screen.eraseToStart position
  | .eraseLine position extent => screen.eraseLine position extent
  | .eraseAll => screen.eraseAll

theorem height_le_apply (screen : Screen width) (operation : Operation) :
    screen.height ≤ (screen.apply operation).height := by
  cases operation with
  | touch | moveTo => exact screen.height_le_touch _
  | advance position limit =>
    rw [apply, advance?]
    cases position.next? width with
    | none => exact Nat.le_refl _
    | some next => exact screen.height_le_touch _
  | put position character pen =>
    rw [apply]
    cases found : position.fault? width with
    | some fault =>
      have unchanged := congrArg Prod.fst (put_of_fault screen character pen found)
      exact Nat.le_of_eq (congrArg height unchanged.symm)
    | none =>
      obtain ⟨positive, within⟩ := Position.fault?_eq_none_iff.mp found
      rw [put_of_within screen positive within]
      exact screen.height_le_write _
  | eraseToEnd => exact Nat.le_of_eq (height_eraseToEnd _ _).symm
  | eraseToStart => exact Nat.le_of_eq (height_eraseToStart _ _).symm
  | eraseLine => exact Nat.le_of_eq (height_eraseLine _ _ _).symm
  | eraseAll => exact Nat.le_of_eq (height_eraseAll _).symm

theorem height_le_foldl_apply (screen : Screen width) (operations : List Operation) :
    screen.height ≤ (operations.foldl apply screen).height := by
  induction operations generalizing screen with
  | nil => exact Nat.le_refl _
  | cons operation operations ih =>
    exact Nat.le_trans (screen.height_le_apply operation) (ih (screen.apply operation))

/-- What becomes of a new screen. -/
def built (width : Nat) (operations : List Operation) : Screen width :=
  operations.foldl apply (blank width)

theorem one_le_height_built (operations : List Operation) :
    1 ≤ (built width operations).height :=
  height_le_foldl_apply (blank width) operations

/-- What can be said of a screen whatever has been done to it.  It has at least one row, and cells
    exactly in the columns of each of its rows.  No operation takes a row away.  Drawing fails at
    positions with a zero and at those beyond the width, and changes nothing then; everywhere else
    the screen grows down to the position, where the character can be read back with its pen, a
    space as a blank.  Growing down to a row and moving to a place do the same for the row, a zero
    counting as one.  All of these keep every other cell and fill what they add with blanks. -/
theorem built_grows (operations : List Operation) :
    let screen := built width operations
    (1 ≤ screen.height
        ∧ (∀ row ∈ screen.rows, row.cells.toList.length = width)
        ∧ ∀ place : Position, (screen.cell? place).isSome = true
            ↔ (1 ≤ place.row ∧ place.row ≤ screen.height)
              ∧ 1 ≤ place.column ∧ place.column ≤ width)
      ∧ (∀ operation, screen.height ≤ (screen.apply operation).height)
      ∧ (∀ position character pen,
          (∀ fault, (screen.put position character pen).2 = some fault
              ↔ (position.column = 0 ∨ position.row = 0)
                  ∧ fault = .zero position.column position.row
                ∨ ¬ (position.column = 0 ∨ position.row = 0) ∧ width < position.column
                  ∧ fault = .beyondWidth position.column position.row width)
            ∧ ((screen.put position character pen).2 ≠ none →
                (screen.put position character pen).1 = screen)
            ∧ ((screen.put position character pen).2 = none →
                (screen.put position character pen).1.height = max screen.height position.row
                  ∧ (screen.put position character pen).1.cell? position
                    = some ⟨if character = ' ' then none else some character, pen⟩
                  ∧ Continues (· = position) screen (screen.put position character pen).1))
      ∧ (∀ number, (screen.touch number).height = max screen.height (max number 1)
          ∧ Continues (fun _ => False) screen (screen.touch number))
      ∧ ∀ column row, (screen.moveTo column row).2 = ⟨max column 1, max row 1⟩
          ∧ (screen.moveTo column row).1.height = max screen.height (max row 1)
          ∧ Continues (fun _ => False) screen (screen.moveTo column row).1 := by
  intro screen
  have row : 1 ≤ screen.height := one_le_height_built operations
  refine ⟨⟨row, fun _ _ => Vector.length_toList, fun place => ?_⟩, screen.height_le_apply,
    fun position character pen => ⟨fun fault => ?_, fun failed => ?_, fun drawn => ?_⟩,
    fun number => ⟨?_, screen.touch_continues number⟩,
    fun column row => ⟨rfl, height_touch _ _, screen.touch_continues _⟩⟩
  · rw [cell?_eq_seen, and_assoc]
    split
    · next inside => exact iff_of_true rfl inside
    · next outside => exact iff_of_false Bool.false_ne_true outside
  · rw [snd_put]
    exact Position.fault?_eq_some_iff
  · rw [snd_put] at failed
    obtain ⟨fault, found⟩ := Option.ne_none_iff_exists'.mp failed
    rw [put_of_fault screen character pen found]
  · rw [snd_put, Position.fault?_eq_none_iff] at drawn
    obtain ⟨positive, within⟩ := drawn
    rw [put_of_within screen positive within]
    exact ⟨height_write _ _ _, cell?_write_self screen positive within _,
      write_continues screen positive within _⟩
  · rw [height_touch]
    omega

end Screen

end AnsiCanvas
