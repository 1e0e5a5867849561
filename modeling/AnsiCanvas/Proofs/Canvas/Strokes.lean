import AnsiCanvas.Canvas
import AnsiCanvas.Proofs.Screen.Cells

/-! # Strokes

Of all events only drawing and erasing can change a cell.  Such an event, taken with the
cursor and the pen it finds, is a stroke, and what a stroke leaves at a place depends on
nothing else.  All other events move the cursor, change a pen or let the screen grow, and
none of that is seen at any place.
-/

namespace AnsiCanvas

/-- A byte drawn or a region erased, with what is needed of the canvas at that moment. -/
inductive Stroke
  | draw (cursor : Position) (byte : UInt8) (pen : Pen)
  | eraseDisplay (cursor : Position) (extent : DisplayErase)
  | eraseLine (cursor : Position) (extent : LineErase)
  deriving DecidableEq, Repr

namespace Stroke

/-- Whether a stroke replaces the cell at a place. -/
def covers (place : Position) : Stroke → Bool
  | draw cursor _ _ => decide (place = cursor)
  | eraseDisplay cursor extent => extent.covers cursor place
  | eraseLine cursor extent => extent.covers cursor place

/-- The cell that a stroke leaves wherever it covers. -/
def cell : Stroke → Cell
  | draw _ byte pen => .draw (Charset.glyph byte) pen
  | eraseDisplay _ _ | eraseLine _ _ => .blank

/-- The cell at a place after a stroke over the one below. -/
def paint (place : Position) (below : Cell) (stroke : Stroke) : Cell :=
  if stroke.covers place then stroke.cell else below

/-- The last of the strokes that cover a place decides about it. -/
theorem foldl_paint (place : Position) (strokes : List Stroke) (below : Cell) :
    strokes.foldl (paint place) below
      = ((strokes.reverse.find? (·.covers place)).map cell).getD below := by
  induction strokes generalizing below with
  | nil => rfl
  | cons stroke strokes ih =>
    rw [List.foldl_cons, ih, List.reverse_cons, List.find?_append, paint]
    -- If a later stroke covers the place, it does not matter what was there before.
    cases later : strokes.reverse.find? (·.covers place) with
    | some last => simp
    | none => cases covered : stroke.covers place <;> simp [covered]

end Stroke

variable {width : Nat}

/-- The stroke that an event amounts to. -/
def Canvas.stroke? (canvas : Canvas width) : Event → Option Stroke
  | .draw byte => some (.draw canvas.cursor byte canvas.pen)
  | .command (.eraseDisplay extent) => some (.eraseDisplay canvas.cursor extent)
  | .command (.eraseLine extent) => some (.eraseLine canvas.cursor extent)
  | _ => none

namespace Screen

theorem snd_put (screen : Screen width) (position : Position) (character : Char) (pen : Pen) :
    (screen.put position character pen).2 = position.fault? width := by
  rw [put]
  split
  · next found => exact found.symm
  · next found => exact found.symm

theorem put_of_within (screen : Screen width) {cursor : Position} (positive : cursor.Positive)
    (within : cursor.column ≤ width) (character : Char) (pen : Pen) :
    screen.put cursor character pen = (screen.write cursor (.draw character pen), none) := by
  have counted : ¬ (cursor.column = 0 ∨ cursor.row = 0) := by
    have column := positive.column
    have row := positive.row
    omega
  rw [put, Position.fault?, if_neg counted, if_neg (Nat.not_lt.mpr within)]

theorem put_of_beyond (screen : Screen width) {cursor : Position} (beyond : width < cursor.column)
    (character : Char) (pen : Pen) : (screen.put cursor character pen).1 = screen := by
  rw [put, Position.fault?]
  split
  · rfl
  · next possible =>
    split at possible
    · cases possible
    · simp at possible

theorem seen_put (screen : Screen width) {cursor : Position} (positive : cursor.Positive)
    (character : Char) (pen : Pen) {place : Position} (within : place.column ≤ width) :
    (screen.put cursor character pen).1.seen place
      = if place = cursor then .draw character pen else screen.seen place := by
  rcases Nat.lt_or_ge width cursor.column with beyond | inside
  · -- Nothing is drawn, and at the cursor there is no place within the width.
    have other : place ≠ cursor := by
      rintro rfl
      omega
    rw [put_of_beyond screen beyond, if_neg other]
  · rw [put_of_within screen positive inside, seen_write screen positive inside]

end Screen

namespace Canvas

section

variable {canvas : Canvas width} (limit : Nat) (byte : UInt8)

/-- A byte is put and the cursor goes on to the next position, held at the row limit. -/
theorem draw_of_next {next : Position} (onward : canvas.cursor.next? width = some next) :
    canvas.draw limit byte
      = ({ canvas with
            screen := (canvas.screen.put canvas.cursor (Charset.glyph byte) canvas.pen).1.touch
              (next.limited limit).1.row,
            cursor := (next.limited limit).1 },
          (canvas.screen.put canvas.cursor (Charset.glyph byte) canvas.pen).2.toList.map
              .invalidPosition
            ++ overLimit limit (next.limited limit).2) := by
  simp only [draw, Screen.advance?, onward, Option.map_some, Option.getD_some]

/-- Where there is no next position, a byte is put and the cursor stays. -/
theorem draw_of_no_next (last : canvas.cursor.next? width = none) :
    canvas.draw limit byte
      = ({ canvas with
            screen := (canvas.screen.put canvas.cursor (Charset.glyph byte) canvas.pen).1 },
          (canvas.screen.put canvas.cursor (Charset.glyph byte) canvas.pen).2.toList.map
            .invalidPosition) := by
  simp [draw, Screen.advance?, last, overLimit]

end

theorem seen_eraseDisplay (canvas : Canvas width) (positive : canvas.cursor.Positive)
    (extent : DisplayErase) (place : Position) :
    (canvas.eraseDisplay extent).screen.seen place
      = if extent.covers canvas.cursor place then .blank else canvas.screen.seen place := by
  cases extent with
  | toEnd => exact Screen.seen_eraseToEnd _ positive place
  | toStart => exact Screen.seen_eraseToStart _ positive place
  | all | scrollback => exact Screen.seen_eraseAll _ place

/-- An event changes what its stroke covers and nothing else. -/
theorem seen_perform (limit : Nat) (event : Event) {canvas : Canvas width}
    (positive : canvas.cursor.Positive) {place : Position} (within : place.column ≤ width) :
    (canvas.perform limit event).1.screen.seen place
      = (canvas.stroke? event).toList.foldl (Stroke.paint place) (canvas.screen.seen place) := by
  cases event with
  | draw byte =>
    have put := canvas.screen.seen_put positive (Charset.glyph byte) canvas.pen within
    cases onward : canvas.cursor.next? width with
    | none =>
      simp [perform, draw_of_no_next limit byte onward, put, stroke?, Stroke.paint, Stroke.covers,
        Stroke.cell]
    | some next =>
      simp [perform, draw_of_next limit byte onward, Screen.seen_touch, put, stroke?, Stroke.paint,
        Stroke.covers, Stroke.cell]
  | lineFeed => exact Screen.seen_touch _ _ place
  | carriageReturn | stop | silence | rejected => rfl
  | command command =>
    cases command with
    | eraseDisplay extent => exact seen_eraseDisplay canvas positive extent place
    | eraseLine extent => exact Screen.seen_eraseLine _ positive extent place
    | place row column => exact Screen.seen_touch _ _ place
    | restore => exact Screen.seen_touch _ _ place
    | move | save | rendition | ignored | unhandled => rfl

/-- Without a stroke every cell there is stays as it is, wherever the cursor may be. -/
theorem cell?_perform_of_stroke?_eq_none (limit : Nat) {event : Event} {canvas : Canvas width}
    (none : canvas.stroke? event = none) {place : Position} {cell : Cell}
    (found : canvas.screen.cell? place = some cell) :
    (canvas.perform limit event).1.screen.cell? place = some cell := by
  cases event with
  | draw byte => cases none
  | lineFeed => exact Screen.cell?_touch_of_cell? found _
  | carriageReturn | stop | silence | rejected => exact found
  | command command =>
    cases command with
    | eraseDisplay extent => cases none
    | eraseLine extent => cases none
    | place row column => exact Screen.cell?_touch_of_cell? found _
    | restore => exact Screen.cell?_touch_of_cell? found _
    | move | save | rendition | ignored | unhandled => exact found

end Canvas

end AnsiCanvas
