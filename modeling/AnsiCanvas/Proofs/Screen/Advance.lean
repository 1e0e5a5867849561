import AnsiCanvas.Proofs.Canvas.Limit
import AnsiCanvas.Proofs.Screen.Growth

/-! # Going on in reading order

The address of a position is the number of places before it in reading order.  The next position
is the one on the columns of the screen whose address is one more, also when the column was beyond
the width.  Addresses are held at the largest count, and there is a next position for each of them,
but for one case: on a screen one cell wide the largest address leads to a row that is no count.
-/

namespace AnsiCanvas

variable {width : Nat}

namespace Position

/-- Both coordinates are 64-bit counts. -/
structure Counted (position : Position) : Prop where
  column : position.column ≤ Count.largest
  row : position.row ≤ Count.largest

/-- The number of places before a position in reading order, a zero counting as one. -/
def address (position : Position) (width : Nat) : Nat :=
  position.rowIndex * width + position.columnIndex

/-- The address of the next position, held at the largest count. -/
def nextAddress (position : Position) (width : Nat) : Nat :=
  min (position.address width + 1) Count.largest

theorem next?_eq (position : Position) (width : Nat) :
    position.next? width
      = (Count.sum? (position.nextAddress width / width) 1).map fun row =>
          ⟨position.nextAddress width % width + 1, row⟩ := by
  have held : Count.add (Count.add (Count.mul position.rowIndex width) position.columnIndex) 1
      = position.nextAddress width := by
    rw [nextAddress, address, Count.add, Count.add, Count.mul]
    generalize position.rowIndex * width = before
    omega
  rw [next?, held]

theorem next?_eq_some_iff {position next : Position} :
    position.next? width = some next
      ↔ position.nextAddress width / width + 1 ≤ Count.largest
        ∧ ⟨position.nextAddress width % width + 1, position.nextAddress width / width + 1⟩
          = next := by
  simp [next?_eq, Count.sum?_eq_some_iff, and_assoc]

/-- There is a next position, except on one column at the end of the addresses. -/
theorem isSome_next?_iff (nonempty : 0 < width) (position : Position) :
    (position.next? width).isSome = true
      ↔ 1 < width ∨ position.address width + 1 < Count.largest := by
  have row : (position.next? width).isSome = true
      ↔ position.nextAddress width / width + 1 ≤ Count.largest := by
    simp [Option.isSome_iff_exists, next?_eq_some_iff]
  have held : position.nextAddress width ≤ Count.largest := Nat.min_le_right _ _
  rw [row]
  rcases Nat.lt_or_ge 1 width with wide | narrow
  · -- At least every other address is in the row before.
    have half : position.nextAddress width / width ≤ position.nextAddress width / 2 :=
      Nat.div_le_div_left wide Nat.two_pos
    have large : 2 ≤ Count.largest := by decide
    exact iff_of_true (by omega) (.inl wide)
  · obtain rfl : width = 1 := Nat.le_antisymm narrow nonempty
    rw [Nat.div_one]
    simp only [nextAddress, Nat.lt_irrefl, false_or]
    omega

/-- The coordinates of the next position are 64-bit counts. -/
theorem counted_next {position next : Position} (onward : position.next? width = some next)
    (nonempty : 0 < width) (representable : width ≤ Count.largest) : next.Counted where
  column := Nat.le_trans (next_column_le onward nonempty) representable
  row := by
    obtain ⟨row, rfl⟩ := next?_eq_some_iff.mp onward
    exact row

/-- The next position is the one position on the columns whose address is one more. -/
theorem eq_next_iff (nonempty : 0 < width) {position next : Position}
    (onward : position.next? width = some next)
    (room : position.address width + 1 ≤ Count.largest) {other : Position} :
    other = next
      ↔ other.Positive ∧ other.column ≤ width
        ∧ other.address width = position.address width + 1 := by
  have held : position.nextAddress width = position.address width + 1 := Nat.min_eq_left room
  obtain ⟨-, rfl⟩ := next?_eq_some_iff.mp onward
  rw [held]
  generalize position.address width + 1 = address
  constructor
  · rintro rfl
    exact ⟨⟨Nat.le_add_left _ _, Nat.le_add_left _ _⟩, Nat.mod_lt _ nonempty,
      Nat.div_add_mod' address width⟩
  · rintro ⟨positive, within, rfl⟩
    have inside : other.columnIndex < width := by
      have := positive.columnIndex_add_one
      omega
    have parts : other.address width / width = other.rowIndex
        ∧ other.address width % width = other.columnIndex :=
      (Nat.div_mod_unique nonempty).mpr ⟨by rw [address, Nat.mul_comm, Nat.add_comm], inside⟩
    rw [parts.1, parts.2, positive.columnIndex_add_one, positive.rowIndex_add_one]

end Position

namespace Screen

/-- Where a screen goes on, the row limit holds the position and nothing that was there changes. -/
theorem exists_advance (screen : Screen width) {position next : Position}
    (onward : position.next? width = some next) (limit : Nat) :
    ∃ after final exceeded, screen.advance? position limit = some (after, final, exceeded)
      ∧ (if 0 < limit ∧ limit < next.row then
          final = ⟨next.column, limit⟩ ∧ exceeded = some next.row
        else final = next ∧ exceeded = none)
      ∧ after.height = max screen.height final.row
      ∧ Continues (fun _ => False) screen after := by
  obtain ⟨final, exceeded, held⟩ : ∃ final exceeded, next.limited limit = (final, exceeded) :=
    ⟨_, _, rfl⟩
  have advanced : screen.advance? position limit
      = some (screen.touch final.row, final, exceeded) := by
    rw [advance?, onward, Option.map_some, held]
  refine ⟨_, final, exceeded, advanced, ?_, height_touch _ _, touch_continues _ _⟩
  rw [Position.limited] at held
  split at held <;> obtain ⟨rfl, rfl⟩ := Prod.mk.inj held
  · next low => exact (if_pos low).mpr ⟨rfl, rfl⟩
  · next reached => exact (if_neg reached).mpr ⟨rfl, rfl⟩

/-- Going on is taking the next address.  There is a next position, unless the screen is one cell
    wide and the next address not below the largest count; then a screen does not go on either.
    Where there is one its coordinates are counts, the column is one of the screen, the row is a
    row, and as long as the next address is below the largest count it is this position alone that
    has it, wherever one goes on from, also beyond the width and from a zero counting as one.  A
    screen that goes on gets there, unless the row lies below the row limit: then it goes to the
    row at the limit instead and tells the row it was on its way to.  It grows down to the row it
    has got to and keeps every cell. -/
theorem advance_takes_next_address (nonempty : 0 < width) (representable : width ≤ Count.largest)
    (position : Position) :
    ((position.next? width).isSome = true
        ↔ 1 < width ∨ position.address width + 1 < Count.largest)
      ∧ (∀ (screen : Screen width) (limit : Nat),
          (screen.advance? position limit).isSome = (position.next? width).isSome)
      ∧ ∀ next, position.next? width = some next →
          next.Counted ∧ next.Positive ∧ next.column ≤ width
            ∧ (position.address width + 1 < Count.largest → ∀ other : Position,
                other = next
                  ↔ other.Positive ∧ other.column ≤ width
                    ∧ other.address width = position.address width + 1)
            ∧ ∀ (screen : Screen width) (limit : Nat),
                ∃ after final exceeded,
                  screen.advance? position limit = some (after, final, exceeded)
                    ∧ (if 0 < limit ∧ limit < next.row then
                        final = ⟨next.column, limit⟩ ∧ exceeded = some next.row
                      else final = next ∧ exceeded = none)
                    ∧ after.height = max screen.height final.row
                    ∧ Continues (fun _ => False) screen after := by
  refine ⟨position.isSome_next?_iff nonempty, fun _ _ => Option.isSome_map, fun next onward => ?_⟩
  exact ⟨Position.counted_next onward nonempty representable, Position.next_positive onward,
    Position.next_column_le onward nonempty,
    fun room _ => Position.eq_next_iff nonempty onward (Nat.le_of_lt room),
    fun screen limit => screen.exists_advance onward limit⟩

/-- From two columns beyond the width one goes on to the third of the next row, here held at the
    first. -/
theorem advance_from_beyond_width :
    (∃ next : Position, Position.next? ⟨12, 1⟩ 10 = some next ∧ next.Counted
        ∧ ∀ other : Position, other = next
          ↔ other.Positive ∧ other.column ≤ 10 ∧ other.address 10 = 12)
      ∧ ∃ after, (blank 10).advance? ⟨12, 1⟩ 1 = some (after, ⟨3, 1⟩, some 2)
        ∧ after.height = 1 := by
  have fits : 10 ≤ Count.largest := by decide
  obtain ⟨-, -, follows⟩ := advance_takes_next_address (by decide) fits ⟨12, 1⟩
  have onward : Position.next? ⟨12, 1⟩ 10 = some ⟨3, 2⟩ := by decide
  obtain ⟨counted, -, -, unique, goesOn⟩ := follows _ onward
  obtain ⟨after, final, exceeded, advanced, held, height, -⟩ := goesOn (blank 10) 1
  rw [if_pos (by decide)] at held
  obtain ⟨rfl, rfl⟩ := held
  exact ⟨⟨_, onward, counted, unique (by decide)⟩, after, advanced, height⟩

/-- On one column there is a position of counts with no next one. -/
theorem not_exists_next_of_one_column :
    ¬ ∀ width : Nat, 0 < width → width ≤ Count.largest → ∀ position : Position,
        position.Counted → ∃ next, position.next? width = some next := by
  intro goesOn
  have last : Position.Counted ⟨1, Count.largest⟩ := ⟨by decide, Nat.le_refl _⟩
  obtain ⟨next, onward⟩ := goesOn 1 (by decide) (by decide) ⟨1, Count.largest⟩ last
  have none : Position.next? ⟨1, Count.largest⟩ 1 = none := by decide
  rw [none] at onward
  cases onward

end Screen

end AnsiCanvas
