import AnsiCanvas.Proofs.Scan.Bounds
import AnsiCanvas.Proofs.Screen.Advance

/-! # There is always a way on

A scan finds a next position after every byte it draws.  Rows are skipped by drawing in a column
beyond the width, and no more of them than a parameter can name, and by placing the cursor.  So the
addresses outlast every document whose bytes a parameter can number.

The induction is on the bytes that have been taken.
-/

namespace AnsiCanvas

variable {width : Nat}

/-! ## A byte -/

theorem Position.limited_row_le_row (position : Position) (limit : Nat) :
    (position.limited limit).1.row ≤ position.row := by
  rcases position.limited_or_held limit with alone | ⟨-, below, held⟩
  · exact Nat.le_of_eq (by rw [alone])
  · rw [held]
    exact Nat.le_of_lt below

theorem Position.next_row_le {position next : Position}
    (onward : position.next? width = some next) (nonempty : 0 < width)
    (positive : position.Positive) (reachable : position.column ≤ max width Parameter.largest) :
    next.row ≤ position.row + Parameter.largest := by
  have skipped : position.column / width ≤ Parameter.largest := by
    rcases Nat.le_total width Parameter.largest with narrow | wide
    · rw [Nat.max_eq_right narrow] at reachable
      exact Nat.le_trans (Nat.div_le_self _ _) reachable
    · rw [Nat.max_eq_left wide] at reachable
      exact Nat.le_trans (Nat.div_le_div_right reachable) (by rw [Nat.div_self nonempty]; decide)
  have held : position.nextAddress width ≤ width * position.rowIndex + position.column := by
    rw [nextAddress, address, Nat.mul_comm, Nat.add_assoc, positive.columnIndex_add_one]
    exact Nat.min_le_left _ _
  obtain ⟨-, rfl⟩ := next?_eq_some_iff.mp onward
  calc position.nextAddress width / width + 1
      ≤ (width * position.rowIndex + position.column) / width + 1 :=
        Nat.add_le_add_right (Nat.div_le_div_right held) 1
    _ = position.rowIndex + 1 + position.column / width := by
        rw [Nat.mul_add_div nonempty, Nat.add_right_comm]
    _ ≤ position.row + Parameter.largest := by
        rw [positive.rowIndex_add_one]
        exact Nat.add_le_add_left skipped _

namespace Canvas

variable {canvas : Canvas width} {event : Event} {limit : Nat}

/-- An event that makes for no target leaves the cursor on a row that exists. -/
theorem Bounded.row_le_of_no_target (bounded : canvas.Bounded limit)
    (unmoved : canvas.target? event = none) :
    (canvas.perform limit event).1.cursor.row ≤ canvas.screen.height := by
  have stays := bounded.cursor.row_le
  have nonempty : 0 < canvas.screen.height := Nat.lt_of_lt_of_le bounded.cursor.row stays
  cases event with
  | draw byte =>
    rw [Canvas.perform, draw_of_no_next limit byte unmoved]
    exact stays
  | lineFeed => cases unmoved
  | carriageReturn | stop | silence | rejected => exact stays
  | command command =>
    cases command with
    | place => cases unmoved
    | move direction amount => exact Position.shift_le _ _ nonempty
    | eraseDisplay extent =>
      cases extent with
      | all => exact nonempty
      | toEnd | toStart | scrollback => exact stays
    | restore => exact bounded.saved.row_le
    | eraseLine | save | rendition | ignored | unhandled => exact stays

theorem Bounded.target_row_le (bounded : canvas.Bounded limit) (inRange : event.InRange)
    (nonempty : 0 < width) {target : Position} (makes : canvas.target? event = some target) :
    target.row ≤ canvas.screen.height + Parameter.largest := by
  have one : 1 ≤ Parameter.largest := by decide
  have row := bounded.cursor.row_le
  cases event with
  | draw byte =>
    exact Nat.le_trans (Position.next_row_le makes nonempty bounded.cursor.toPositive
      bounded.cursor.column_le) (Nat.add_le_add_right row _)
  | lineFeed =>
    obtain rfl := Option.some.inj makes
    have below : Count.add canvas.cursor.row 1 ≤ canvas.cursor.row + 1 := Nat.min_le_left _ _
    exact Nat.le_trans below (Nat.add_le_add row one)
  | carriageReturn | stop | silence | rejected => cases makes
  | command command =>
    cases command with
    | place row column =>
      obtain rfl := Option.some.inj makes
      exact Nat.le_trans (Nat.max_le.mpr ⟨inRange.1.2, one⟩) (Nat.le_add_left _ _)
    | move | eraseDisplay | eraseLine | save | restore | rendition | ignored | unhandled =>
      cases makes

/-- An event adds no more rows than a parameter can name. -/
theorem Bounded.height_perform_le (bounded : canvas.Bounded limit) (inRange : event.InRange)
    (nonempty : 0 < width) :
    (canvas.perform limit event).1.screen.height
      ≤ canvas.screen.height + Parameter.largest := by
  rw [height_perform limit event bounded.cursor]
  refine Nat.max_le.mpr ⟨Nat.le_add_right _ _, ?_⟩
  cases makes : canvas.target? event with
  | none => exact Nat.le_trans (bounded.row_le_of_no_target makes) (Nat.le_add_right _ _)
  | some target =>
    rw [cursor_of_target? makes]
    exact Nat.le_trans (target.limited_row_le_row limit)
      (bounded.target_row_le inRange nonempty makes)

/-- A canvas within the bounds goes on after every byte, as long as its screen is lower than the
    largest count by what a parameter can name. -/
theorem Bounded.isSome_advance? (bounded : canvas.Bounded limit) (nonempty : 0 < width)
    (room : canvas.screen.height + Parameter.largest ≤ Count.largest) (rowLimit : Nat) :
    (canvas.screen.advance? canvas.cursor rowLimit).isSome = true := by
  have onward : (canvas.cursor.next? width).isSome = true := by
    rw [Position.isSome_next?_iff nonempty]
    rcases Nat.lt_or_ge 1 width with wide | narrow
    · exact .inl wide
    · obtain rfl : width = 1 := Nat.le_antisymm narrow nonempty
      have parameter : 1 ≤ Parameter.largest := by decide
      have column := bounded.cursor.column_le
      have row := bounded.cursor.row_le
      have first := bounded.cursor.row
      simp only [Position.address, Position.rowIndex, Position.columnIndex]
      omega
  rw [Screen.advance?, Option.isSome_map]
  exact onward

end Canvas

/-! ## A run -/

namespace Scan

theorem height_of_reached {settings : Settings} (nonempty : 0 < width) {bytes : List UInt8}
    {scan : Scan width} (bounded : scan.canvas.Bounded settings.rowLimit) {count : Nat}
    {state : Scan width} (reached : (states settings bytes scan)[count]? = some state) :
    state.canvas.screen.height
      ≤ scan.canvas.screen.height + count * Parameter.largest := by
  induction count generalizing state with
  | zero =>
    rw [states_zero] at reached
    obtain rfl := Option.some.inj reached
    exact Nat.le_add_right _ _
  | succ count ih =>
    obtain ⟨before, byte, earlier, rfl⟩ := states_succ reached
    have kept := bounded_of_reached nonempty bounded earlier
    rw [canvas_step, Nat.succ_mul, ← Nat.add_assoc]
    exact Nat.le_trans (kept.height_perform_le (before.event_inRange byte) nonempty)
      (Nat.add_le_add_right (ih earlier) _)

/-- In every state that a scan gets to within as many bytes as a parameter can number, the cursor
    has a way on. -/
theorem goes_on_of_reached (converter : Converter) (bytes : List UInt8) (listening : Bool)
    {count : Nat} {state : Scan converter.settings.width}
    (reached : (states converter.settings bytes (start converter.settings listening))[count]?
      = some state) (early : count ≤ Parameter.largest) (rowLimit : Nat) :
    (state.canvas.screen.advance? state.canvas.cursor rowLimit).isSome = true := by
  have blank := Canvas.Bounded.blank converter.width_pos converter.settings.rowLimit
  have bounded := bounded_of_reached converter.width_pos blank reached
  have height : state.canvas.screen.height ≤ 1 + count * Parameter.largest :=
    height_of_reached converter.width_pos blank reached
  have skipped : count * Parameter.largest ≤ Parameter.largest * Parameter.largest :=
    Nat.mul_le_mul_right _ early
  have room : 1 + Parameter.largest * Parameter.largest + Parameter.largest ≤ Count.largest := by
    decide
  exact bounded.isSome_advance? converter.width_pos (by omega) rowLimit

end Scan

end AnsiCanvas
