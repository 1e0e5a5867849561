import AnsiCanvas.Converter
import AnsiCanvas.Proofs.Canvas.Bounds
import AnsiCanvas.Proofs.Scan.Run

/-! # Bounds of a scan

The bounds of the canvas hold in every state of every run.  The height of the screen is
remembered by the states alone: it is the lowest row the cursor has been on.
-/

namespace AnsiCanvas

variable {width : Nat}

namespace Scan

theorem event_inRange (scan : Scan width) (byte : UInt8) : (scan.event byte).InRange := by
  cases event : scan.event byte with
  | command asked => exact Event.ofByte_inRange event
  | stop | draw | carriageReturn | lineFeed | rejected | silence => trivial

theorem bounded_step {settings : Settings} (nonempty : 0 < width) {scan : Scan width}
    (bounded : scan.canvas.Bounded settings.rowLimit) (byte : UInt8) :
    (scan.step settings byte).1.canvas.Bounded settings.rowLimit := by
  rw [canvas_step]
  exact bounded.perform (scan.event_inRange byte) nonempty

theorem bounded_of_reached {settings : Settings} (nonempty : 0 < width) {bytes : List UInt8}
    {scan : Scan width} (bounded : scan.canvas.Bounded settings.rowLimit) {count : Nat}
    {state : Scan width} (reached : (states settings bytes scan)[count]? = some state) :
    state.canvas.Bounded settings.rowLimit :=
  states_invariant (fun state => state.canvas.Bounded settings.rowLimit)
    (fun _ byte holds => bounded_step nonempty holds byte) bounded reached

theorem height_step {settings : Settings} {scan : Scan width}
    (bounded : scan.canvas.Bounded settings.rowLimit) (byte : UInt8) :
    (scan.step settings byte).1.canvas.screen.height
      = max scan.canvas.screen.height (scan.step settings byte).1.canvas.cursor.row := by
  rw [canvas_step]
  exact Canvas.height_perform _ _ bounded.cursor

def row (scan : Scan width) : Nat := scan.canvas.cursor.row

/-- The screen of every state is as high as the lowest row of the states so far. -/
theorem max?_rows {settings : Settings} (nonempty : 0 < width) {bytes : List UInt8}
    {scan : Scan width} (bounded : scan.canvas.Bounded settings.rowLimit)
    (first : scan.canvas.screen.height = scan.row) {count : Nat} {state : Scan width}
    (reached : (states settings bytes scan)[count]? = some state) :
    (((states settings bytes scan).take (count + 1)).map row).max?
      = some state.canvas.screen.height := by
  induction count generalizing state with
  | zero =>
    rw [states_zero] at reached
    obtain rfl := Option.some.inj reached
    rw [List.take_add_one, List.take_zero, List.nil_append, states_zero, Option.toList_some,
      List.map_singleton, first]
    rfl
  | succ count ih =>
    obtain ⟨before, byte, earlier, rfl⟩ := states_succ reached
    have kept := bounded_of_reached nonempty bounded earlier
    obtain ⟨attained, highest⟩ := List.max?_eq_some_iff.mp (ih earlier)
    rw [List.take_add_one, reached, Option.toList_some, List.map_append, List.map_singleton,
      List.max?_eq_some_iff, height_step kept byte]
    constructor
    · -- Either the screen has just grown to the cursor or it is as high as before.
      rw [List.mem_append, List.mem_singleton, ← row]
      rcases Nat.le_total before.canvas.screen.height (before.step settings byte).1.row with
        grows | stays
      · exact .inr (Nat.max_eq_right grows)
      · rw [Nat.max_eq_left stays]
        exact .inl attained
    · intro other member
      rw [List.mem_append, List.mem_singleton] at member
      rcases member with member | rfl
      · exact Nat.le_trans (highest other member) (Nat.le_max_left _ _)
      · exact Nat.le_max_right _ _

/-- In every state of every run, the first and the last included, the cursor and the saved
    cursor are on rows of the screen and in columns that exist or that a parameter can
    name, classic colors are below sixteen in both pens and in every cell, and the row
    limit is kept.  All rows have the width of the screen, going back to the saved cursor
    adds none, and there are as many as the lowest row of the cursor so far. -/
theorem states_bounded (converter : Converter) (bytes : List UInt8) (listening : Bool)
    {count : Nat} {state : Scan converter.settings.width}
    (reached : (states converter.settings bytes (start converter.settings listening))[count]?
      = some state) :
    state.canvas.Bounded converter.settings.rowLimit
      ∧ (∀ row ∈ state.canvas.screen.rows,
          row.cells.toList.length = converter.settings.width)
      ∧ (state.canvas.obey converter.settings.rowLimit .restore).1.screen = state.canvas.screen
      ∧ (((states converter.settings bytes (start converter.settings listening)).take
            (count + 1)).map row).max?
          = some state.canvas.screen.height := by
  have blank := Canvas.Bounded.blank converter.width_pos converter.settings.rowLimit
  have bounded := bounded_of_reached converter.width_pos blank reached
  refine ⟨bounded, fun row _ => Vector.length_toList, ?_, ?_⟩
  · exact if_neg (Nat.not_lt.mpr bounded.saved.row_le)
  · exact max?_rows converter.width_pos blank rfl reached

theorem states_bounded_after_line_feed :
    ∃ state : Scan 2,
      (states { width := 2 } [0x41, 0x0A] (start { width := 2 } false))[2]? = some state
        ∧ state.canvas.screen.height = 2 ∧ state.canvas.cursor.Within 2 2 := by
  have reached : (states { width := 2 } [0x41, 0x0A] (start { width := 2 } false))[2]?
      = some (run { width := 2 } [0x41, 0x0A] (start { width := 2 } false)).1 := rfl
  obtain ⟨bounded, -, -, highest⟩ :=
    states_bounded ⟨{ width := 2 }, by decide⟩ [0x41, 0x0A] false reached
  exact ⟨_, reached, (Option.some.inj highest).symm, bounded.cursor⟩

end Scan

end AnsiCanvas
