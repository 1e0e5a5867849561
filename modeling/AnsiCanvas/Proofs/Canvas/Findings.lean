import AnsiCanvas.Proofs.Canvas.Limit
import AnsiCanvas.Scan

/-! # What an event finds

Carrying out an event finds at most one thing wrong, with one exception.  A byte that is drawn
beyond the width may also be the one that leads past the row limit, and then the position is
reported before the row.  A cursor has no coordinate that is zero, and an escape that ends the
scan is not carried out, so neither is ever reported.
-/

namespace AnsiCanvas

variable {width : Nat}

theorem Position.fault?_of_positive {position : Position} (positive : position.Positive)
    (width : Nat) :
    position.fault? width
      = if width < position.column then
          some (.beyondWidth position.column position.row width)
        else none := by
  have column := positive.column
  have row := positive.row
  rw [fault?, if_neg (by omega)]

namespace Canvas

/-- A byte is put before the cursor moves on, and so are their diagnostics. -/
theorem found_draw (limit : Nat) (byte : UInt8) (canvas : Canvas width) :
    (canvas.draw limit byte).2
      = (canvas.cursor.fault? width).toList.map .invalidPosition
        ++ overLimit limit
            ((canvas.cursor.next? width).bind fun next => (next.limited limit).2) := by
  cases onward : canvas.cursor.next? width with
  | none => simp [draw_of_no_next limit byte onward, Screen.snd_put, overLimit]
  | some next => simp [draw_of_next limit byte onward, Screen.snd_put]

theorem length_overLimit (limit : Nat) (exceeded : Option Nat) :
    (overLimit limit exceeded).length ≤ 1 := by
  cases exceeded <;> simp [overLimit]

/-- An event that draws nothing finds at most one thing. -/
theorem length_perform_le_one (limit : Nat) {event : Event}
    (undrawn : ∀ byte, event ≠ .draw byte) (canvas : Canvas width) :
    (canvas.perform limit event).2.length ≤ 1 := by
  cases event with
  | draw byte => exact absurd rfl (undrawn byte)
  | lineFeed => exact length_overLimit limit _
  | carriageReturn | rejected | stop | silence => simp [perform]
  | command asked =>
    cases asked with
    | place row column => exact length_overLimit limit _
    | rendition codes =>
      simp only [perform, obey, List.length_map]
      exact Option.length_toList_le
    | move | eraseDisplay | eraseLine | save | restore | ignored | unhandled =>
      simp [perform, obey]

/-- An event finds two things only if it draws a byte, and it is known which. -/
theorem found_perform (limit : Nat) (event : Event) {canvas : Canvas width}
    (cursor : canvas.cursor.Positive) :
    (canvas.perform limit event).2.length ≤ 1
      ∨ ∃ byte column row exceeded, event = .draw byte
          ∧ (canvas.perform limit event).2
            = [.invalidPosition (.beyondWidth column row width), .rowLimit exceeded limit] := by
  cases event with
  | draw byte =>
    rw [perform, found_draw, Position.fault?_of_positive cursor]
    by_cases beyond : width < canvas.cursor.column
    · rw [if_pos beyond]
      cases held : ((canvas.cursor.next? width).bind fun next => (next.limited limit).2) with
      | none => exact .inl (Nat.le_refl _)
      | some exceeded => exact .inr ⟨byte, _, _, exceeded, rfl, rfl⟩
    · rw [if_neg beyond]
      exact .inl (length_overLimit limit _)
  | lineFeed | carriageReturn | rejected | stop | silence | command =>
    exact .inl (length_perform_le_one limit (by simp) canvas)

/-- The diagnostics that there can be for an event, each with what gives rise to it. -/
inductive Finding (limit : Nat) (event : Event) (canvas : Canvas width) : Diagnostic → Prop
  | position {error : PositionError} (faulty : canvas.cursor.fault? width = some error) :
      Finding limit event canvas (.invalidPosition error)
  | rowLimit (row : Nat) : Finding limit event canvas (.rowLimit row limit)
  | escape {error : EscapeError} (rejects : event = .rejected error) :
      Finding limit event canvas (.malformedEscape error)
  | rendition (error : RenditionError) : Finding limit event canvas (.rendition error)
  | unhandled (letter : UInt8) : Finding limit event canvas (.unhandledCommand letter)

theorem finding_of_mem_overLimit {limit : Nat} {event : Event} {canvas : Canvas width}
    {diagnostic : Diagnostic} {exceeded : Option Nat}
    (found : diagnostic ∈ overLimit limit exceeded) : Finding limit event canvas diagnostic := by
  obtain ⟨row, -, rfl⟩ := mem_overLimit.mp found
  exact .rowLimit row

theorem finding_of_mem {limit : Nat} {event : Event} {canvas : Canvas width}
    {diagnostic : Diagnostic} (found : diagnostic ∈ (canvas.perform limit event).2) :
    Finding limit event canvas diagnostic := by
  cases event with
  | draw byte =>
    rw [perform, found_draw, List.mem_append] at found
    obtain misplaced | exceeded := found
    · obtain ⟨error, faulty, rfl⟩ := List.mem_map.mp misplaced
      exact .position (Option.mem_toList.mp faulty)
    · exact finding_of_mem_overLimit exceeded
  | lineFeed => exact finding_of_mem_overLimit found
  | rejected error =>
    obtain rfl := List.mem_singleton.mp found
    exact .escape rfl
  | carriageReturn | stop | silence => simp [perform] at found
  | command asked =>
    cases asked with
    | place row column => exact finding_of_mem_overLimit found
    | rendition codes =>
      obtain ⟨error, -, rfl⟩ := List.mem_map.mp found
      exact .rendition error
    | unhandled letter =>
      obtain rfl := List.mem_singleton.mp found
      exact .unhandled letter
    | move | eraseDisplay | eraseLine | save | restore | ignored => simp [perform, obey] at found

/-- No cursor is at zero. -/
theorem Finding.ne_zero {limit : Nat} {event : Event} {canvas : Canvas width}
    {diagnostic : Diagnostic} (found : Finding limit event canvas diagnostic)
    (cursor : canvas.cursor.Positive) (column row : Nat) :
    diagnostic ≠ .invalidPosition (.zero column row) := by
  rintro rfl
  cases found with
  | position faulty =>
    rw [Position.fault?_of_positive cursor] at faulty
    split at faulty <;> cases faulty

/-- An escape with a foreign final byte ends the scan instead of being reported. -/
theorem Finding.ne_unknownTerminator {limit : Nat} {event : Event} {canvas : Canvas width}
    {diagnostic : Diagnostic} (found : Finding limit event canvas diagnostic)
    {policy : UnhandledPolicy} {offset : Nat} (continues : event.ending? policy offset = none)
    (byte : UInt8) (sequence : String) :
    diagnostic ≠ .malformedEscape (.unknownTerminator byte sequence) := by
  rintro rfl
  cases found with
  | escape rejects =>
    rw [rejects] at continues
    cases continues

end Canvas

end AnsiCanvas
