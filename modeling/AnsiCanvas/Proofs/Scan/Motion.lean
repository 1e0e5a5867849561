import AnsiCanvas.Proofs.Scan.Bounds

/-! # Relative motion

A motion is added to a coordinate that stops at zero and at the largest count, and the sum is held
on the screen afterwards.  As the size of a screen is a count too, neither stop is ever seen: the
result is the exact sum, held between one and the size.

A coordinate that is held once would be held again, so two motions in one direction are one motion
over both amounts.  It takes a cursor on the screen for that.  From beyond the width the first of
two motions back is held at the width, and one motion over both amounts need not be.
-/

namespace AnsiCanvas

variable {width : Nat}

namespace Position

/-- A coordinate moves by the exact offset, held between one and the size. -/
theorem shift_eq_clamp (coordinate : Nat) (offset : Int) {size : Nat} (nonempty : 0 < size)
    (representable : size ≤ Count.largest) :
    (shift coordinate offset size : Int) = max 1 (min (coordinate + offset) size) := by
  simp only [shift, Count.add]
  split <;> omega

/-- Moving on in the same direction is moving once over both distances. -/
theorem shift_shift {coordinate size : Nat} (positive : 1 ≤ coordinate)
    (within : coordinate ≤ size) {first second : Int} (alike : first < 0 ↔ second < 0) :
    shift (shift coordinate first size) second size = shift coordinate (first + second) size := by
  have nonempty : max size 1 = size := Nat.max_eq_left (Nat.le_trans positive within)
  have distance : (first + second).natAbs = first.natAbs + second.natAbs := by omega
  simp only [shift, nonempty, distance]
  by_cases back : first < 0
  · have secondBack := alike.mp back
    have bothBack : first + second < 0 := by omega
    simp only [back, secondBack, bothBack, ↓reduceIte]
    -- On the way back only the near end can be met.
    rw [Nat.min_eq_left (Nat.le_trans (Nat.sub_le _ _) within)]
    generalize first.natAbs = before
    generalize second.natAbs = after
    omega
  · have secondOn : ¬ second < 0 := fun secondBack => back (alike.mpr secondBack)
    have bothOn : ¬ first + second < 0 := by omega
    simp only [back, secondOn, bothOn, ↓reduceIte, Count.add, Nat.min_assoc]
    -- The largest count and the size are one far end.
    generalize min Count.largest size = far
    generalize first.natAbs = before
    generalize second.natAbs = after
    omega

end Position

/-- The offset over two amounts is the sum of their offsets, which point the same way. -/
theorem Direction.offset_add (direction : Direction) {first second : Nat}
    (firstPositive : 1 ≤ first) (secondPositive : 1 ≤ second)
    (small : first + second < 0x8000000000000000) :
    direction.offset (first + second)
        = ((direction.offset first).1 + (direction.offset second).1,
            (direction.offset first).2 + (direction.offset second).2)
      ∧ ((direction.offset first).1 < 0 ↔ (direction.offset second).1 < 0)
      ∧ ((direction.offset first).2 < 0 ↔ (direction.offset second).2 < 0) := by
  -- No amount is cut to the largest signed number.
  have uncut {amount : Nat} (le : amount ≤ first + second) :
      min (amount : Int) 0x7FFFFFFFFFFFFFFF = amount := by omega
  have one := uncut (Nat.le_add_right first second)
  have other := uncut (Nat.le_add_left second first)
  cases direction <;> simp [offset, one, other] <;> omega

namespace Screen

/-- A motion ends on the screen, as near as it can to where the exact sums lie. -/
theorem move_eq_clamp (screen : Screen width) (position : Position) (right down : Int)
    (wide : 0 < width ∧ width ≤ Count.largest)
    (high : 0 < screen.height ∧ screen.height ≤ Count.largest) :
    ((screen.move position right down).column : Int) = max 1 (min (position.column + right) width)
      ∧ ((screen.move position right down).row : Int)
        = max 1 (min (position.row + down) screen.height) :=
  ⟨Position.shift_eq_clamp _ _ wide.1 wide.2, Position.shift_eq_clamp _ _ high.1 high.2⟩

theorem move_move (screen : Screen width) {position : Position}
    (within : position.Within width screen.height) (column : position.column ≤ width)
    {direction : Direction} {first second : Nat} (firstPositive : 1 ≤ first)
    (secondPositive : 1 ≤ second) (small : first + second < 0x8000000000000000) :
    screen.move (screen.move position (direction.offset first).1 (direction.offset first).2)
        (direction.offset second).1 (direction.offset second).2
      = screen.move position (direction.offset (first + second)).1
          (direction.offset (first + second)).2 := by
  obtain ⟨both, rightAlike, downAlike⟩ := direction.offset_add firstPositive secondPositive small
  rw [both, move, move, move, Position.shift_shift within.column column rightAlike,
    Position.shift_shift within.row within.row_le downAlike]

end Screen

theorem Canvas.obey_move (limit : Nat) (direction : Direction) (amount : Nat)
    (canvas : Canvas width) :
    canvas.obey limit (.move direction amount)
      = ({ canvas with
            cursor := canvas.screen.move canvas.cursor (direction.offset amount).1
              (direction.offset amount).2 }, []) := rfl

namespace Scan

/-- Relative motion is exact.  Wherever the cursor is, off the screen and at zero too, a motion
    takes it by the exact offsets to the right and down, and each coordinate is then held between
    one and the size of the screen.  Nothing but the cursor changes.  So in every state of every
    run in which the cursor is not beyond the width, two motions in one direction lead to the
    canvas that one motion over both amounts leads to. -/
theorem motion_is_exact :
    (∀ (width : Nat) (screen : Screen width) (cursor : Position) (right down : Int),
        0 < width ∧ width ≤ Count.largest → 0 < screen.height ∧ screen.height ≤ Count.largest →
        ((screen.move cursor right down).column : Int)
            = max 1 (min (cursor.column + right) width)
          ∧ ((screen.move cursor right down).row : Int)
            = max 1 (min (cursor.row + down) screen.height))
      ∧ (∀ (width limit : Nat) (canvas : Canvas width) (direction : Direction) (amount : Nat),
          canvas.obey limit (.move direction amount)
            = ({ canvas with
                  cursor := canvas.screen.move canvas.cursor (direction.offset amount).1
                    (direction.offset amount).2 }, []))
      ∧ ∀ (converter : Converter) (bytes : List UInt8) (listening : Bool) (count : Nat)
          (state : Scan converter.settings.width),
          (states converter.settings bytes (start converter.settings listening))[count]?
            = some state →
          state.canvas.cursor.column ≤ converter.settings.width →
          ∀ (direction : Direction) (first second : Nat), 1 ≤ first → 1 ≤ second →
            first + second < 0x8000000000000000 →
            (state.canvas.obey converter.settings.rowLimit (.move direction first)).1.obey
                converter.settings.rowLimit (.move direction second)
              = state.canvas.obey converter.settings.rowLimit
                  (.move direction (first + second)) := by
  refine ⟨fun width screen cursor right down => screen.move_eq_clamp cursor right down,
    fun width limit canvas direction amount => canvas.obey_move limit direction amount, ?_⟩
  intro converter bytes listening count state reached column direction first second firstPositive
    secondPositive small
  have blank := Canvas.Bounded.blank converter.width_pos converter.settings.rowLimit
  have bounded := bounded_of_reached converter.width_pos blank reached
  simp only [Canvas.obey_move]
  rw [Screen.move_move state.canvas.screen bounded.cursor column firstPositive secondPositive small]

/-- From the largest column and row zero one goes as far as there are numbers for, and from the
    third column of a row of ten by more than the row has left, in two parts or in one. -/
theorem motion_is_exact_past_the_edges :
    (((Screen.blank 10).move ⟨Count.largest, 0⟩ 9223372036854775807 (-9223372036854775808)).column
          : Int) = 10
      ∧ (((Screen.blank 10).move ⟨Count.largest, 0⟩ 9223372036854775807 (-9223372036854775808)).row
          : Int) = 1
      ∧ ((run { width := 10 } [0x41, 0x42] (start { width := 10 } false)).1.canvas.obey 65536
            (.move .forward 4294967295)).1.obey 65536 (.move .forward 4294967295)
        = (run { width := 10 } [0x41, 0x42] (start { width := 10 } false)).1.canvas.obey 65536
            (.move .forward 8589934590) := by
  obtain ⟨exact, -, composes⟩ := motion_is_exact
  obtain ⟨column, row⟩ := exact 10 (Screen.blank 10) ⟨Count.largest, 0⟩ 9223372036854775807
    (-9223372036854775808) (by decide) (by decide)
  have reached : (states { width := 10 } [0x41, 0x42] (start { width := 10 } false))[2]?
      = some (run { width := 10 } [0x41, 0x42] (start { width := 10 } false)).1 := rfl
  exact ⟨column, row, composes ⟨{ width := 10 }, by decide⟩ _ _ 2 _ reached (by decide) .forward _ _
    (by decide) (by decide) (by decide)⟩

end Scan

end AnsiCanvas
