import AnsiCanvas.Proofs.Canvas.Strokes
import AnsiCanvas.Proofs.Escape.Range
import AnsiCanvas.Proofs.Pen.Range

/-! # Bounds of a canvas

Whatever event is carried out, the cursor stays on a row that exists and the screen is
just high enough for the rows the cursor has been on.  A saved cursor was on a row that
existed, and rows never go away, so going back to it needs no new row.
-/

namespace AnsiCanvas

variable {width : Nat}

/-! ## Positions -/

/-- A position on a row of a screen, in a column that exists or that a parameter can
    name. -/
structure Position.Within (width height : Nat) (position : Position) : Prop
    extends position.Positive where
  column_le : position.column ≤ max width Parameter.largest
  row_le : position.row ≤ height

theorem Count.one_le_add_one (count : Nat) : 1 ≤ Count.add count 1 :=
  Nat.le_min.mpr ⟨Nat.le_add_left _ _, by decide⟩

namespace Position

theorem Within.mono {height higher : Nat} {position : Position}
    (within : position.Within width height) (grown : height ≤ higher) :
    position.Within width higher :=
  { within with row_le := Nat.le_trans within.row_le grown }

theorem next_positive {position next : Position} (onward : position.next? width = some next) :
    next.Positive := by
  obtain ⟨row, sum, rfl⟩ := Option.map_eq_some_iff.mp onward
  obtain ⟨-, rfl⟩ := Count.sum?_eq_some_iff.mp sum
  exact ⟨Nat.le_add_left _ _, Nat.le_add_left _ _⟩

theorem next_column_le {position next : Position} (onward : position.next? width = some next)
    (nonempty : 0 < width) : next.column ≤ width := by
  obtain ⟨row, -, rfl⟩ := Option.map_eq_some_iff.mp onward
  exact Nat.mod_lt _ nonempty

@[simp] theorem limited_column (position : Position) (limit : Nat) :
    (position.limited limit).1.column = position.column := by
  rw [limited]
  split <;> rfl

theorem limited_positive {position : Position} (positive : position.Positive) (limit : Nat) :
    (position.limited limit).1.Positive := by
  rw [limited]
  split
  · next exceeds => exact ⟨positive.column, exceeds.1⟩
  · exact positive

theorem limited_row_le (position : Position) {limit : Nat} (bounded : 0 < limit) :
    (position.limited limit).1.row ≤ limit := by
  rw [limited]
  split
  · exact Nat.le_refl _
  · next within => exact Nat.not_lt.mp fun below => within ⟨bounded, below⟩

theorem ofCoordinates_positive (column row : Nat) : (ofCoordinates column row).Positive :=
  ⟨Nat.le_max_right _ _, Nat.le_max_right _ _⟩

theorem ofCoordinates_of_positive {position : Position} (positive : position.Positive) :
    ofCoordinates position.column position.row = position := by
  rw [ofCoordinates, Nat.max_eq_left positive.column, Nat.max_eq_left positive.row]

theorem one_le_shift (coordinate : Nat) (offset : Int) (size : Nat) :
    1 ≤ shift coordinate offset size := Nat.le_max_left _ _

theorem shift_le (coordinate : Nat) (offset : Int) {size : Nat} (nonempty : 0 < size) :
    shift coordinate offset size ≤ size := by
  rw [shift, Nat.max_eq_left nonempty]
  exact Nat.max_le.mpr ⟨nonempty, Nat.min_le_right _ _⟩

end Position

/-! ## Canvases -/

/-- What is true of every canvas on which events have been carried out. -/
structure Canvas.Bounded (limit : Nat) (canvas : Canvas width) : Prop where
  cursor : canvas.cursor.Within width canvas.screen.height
  saved : canvas.saved.position.Within width canvas.screen.height
  pen : canvas.pen.InRange
  savedPen : canvas.saved.pen.InRange
  cells : ∀ place cell, canvas.screen.cell? place = some cell → cell.pen.InRange
  limited : 0 < limit → canvas.screen.height ≤ limit

def Event.InRange : Event → Prop
  | command asked => asked.InRange
  | stop | draw _ | carriageReturn | lineFeed | rejected _ | silence => True

namespace Canvas

theorem height_put (screen : Screen width) {cursor : Position}
    (inside : cursor.row ≤ screen.height) (character : Char) (pen : Pen) :
    (screen.put cursor character pen).1.height = screen.height := by
  rw [Screen.put]
  split
  · rfl
  · rw [Screen.height_write, Nat.max_eq_left inside]

theorem height_eraseDisplay (extent : DisplayErase) (canvas : Canvas width) :
    (canvas.eraseDisplay extent).screen.height = canvas.screen.height := by
  cases extent with
  | toEnd => exact Screen.height_eraseToEnd _ _
  | toStart => exact Screen.height_eraseToStart _ _
  | all | scrollback => exact Screen.height_eraseAll _

/-- The screen grows to the row of the cursor and no further. -/
theorem height_perform (limit : Nat) (event : Event) {canvas : Canvas width}
    (cursor : canvas.cursor.Within width canvas.screen.height) :
    (canvas.perform limit event).1.screen.height
      = max canvas.screen.height (canvas.perform limit event).1.cursor.row := by
  have stays := (Nat.max_eq_left cursor.row_le).symm
  have nonempty : 0 < canvas.screen.height := Nat.lt_of_lt_of_le cursor.row cursor.row_le
  cases event with
  | draw byte =>
    -- The byte goes to a row that exists.  Only moving on can add one.
    have put := height_put canvas.screen cursor.row_le (Charset.glyph byte) canvas.pen
    cases onward : canvas.cursor.next? width with
    | none =>
      rw [perform, draw_of_no_next limit byte onward, put]
      exact stays
    | some next => rw [perform, draw_of_next limit byte onward, Screen.height_touch, put]
  | lineFeed => exact Screen.height_touch _ _
  | carriageReturn | stop | silence | rejected => exact stays
  | command command =>
    cases command with
    | move direction amount => exact (Nat.max_eq_left (Position.shift_le _ _ nonempty)).symm
    | place row column => exact Screen.height_touch _ _
    | eraseDisplay extent =>
      rw [perform, obey, height_eraseDisplay]
      cases extent with
      | all => exact (Nat.max_eq_left nonempty).symm
      | toEnd | toStart | scrollback => exact stays
    | eraseLine extent =>
      rw [perform, obey, Screen.height_eraseLine]
      exact stays
    | restore => exact Screen.height_touch _ _
    | save | rendition | ignored | unhandled => exact stays

theorem cursor_lineFeed (limit : Nat) (canvas : Canvas width) :
    (canvas.lineFeed limit).1.cursor
      = (Position.limited ⟨canvas.cursor.column, Count.add canvas.cursor.row 1⟩ limit).1 := rfl

theorem cursor_place (limit row column : Nat) (canvas : Canvas width) :
    (canvas.place limit row column).1.cursor
      = ((Position.ofCoordinates column row).limited limit).1 :=
  Position.ofCoordinates_of_positive
    (Position.limited_positive (Position.ofCoordinates_positive column row) limit)

/-- Where the cursor goes, as far as the row limit and the width have a say in it. -/
theorem cursor_perform (limit : Nat) {event : Event} (inRange : event.InRange)
    (nonempty : 0 < width) {canvas : Canvas width} (bounded : canvas.Bounded limit) :
    (canvas.perform limit event).1.cursor.Positive
      ∧ (canvas.perform limit event).1.cursor.column ≤ max width Parameter.largest
      ∧ (0 < limit → (canvas.perform limit event).1.cursor.row ≤ limit) := by
  have high : 0 < canvas.screen.height :=
    Nat.lt_of_lt_of_le bounded.cursor.row bounded.cursor.row_le
  have first : 1 ≤ max width Parameter.largest := Nat.le_trans nonempty (Nat.le_max_left _ _)
  have stays : canvas.cursor.Positive ∧ canvas.cursor.column ≤ max width Parameter.largest
      ∧ (0 < limit → canvas.cursor.row ≤ limit) :=
    ⟨bounded.cursor.toPositive, bounded.cursor.column_le,
      fun limited => Nat.le_trans bounded.cursor.row_le (bounded.limited limited)⟩
  cases event with
  | draw byte =>
    cases onward : canvas.cursor.next? width with
    | none =>
      rw [perform, draw_of_no_next limit byte onward]
      exact stays
    | some next =>
      rw [perform, draw_of_next limit byte onward, Position.limited_column]
      exact ⟨Position.limited_positive (Position.next_positive onward) limit,
        Nat.le_trans (Position.next_column_le onward nonempty) (Nat.le_max_left _ _),
        Position.limited_row_le _⟩
  | carriageReturn => exact ⟨⟨Nat.le_refl _, stays.1.row⟩, first, stays.2.2⟩
  | lineFeed =>
    have below : Position.Positive ⟨canvas.cursor.column, Count.add canvas.cursor.row 1⟩ :=
      ⟨stays.1.column, Count.one_le_add_one _⟩
    rw [perform, cursor_lineFeed, Position.limited_column]
    exact ⟨Position.limited_positive below limit, stays.2.1, Position.limited_row_le _⟩
  | stop | silence | rejected => exact stays
  | command command =>
    cases command with
    | move direction amount =>
      have column := Position.shift_le canvas.cursor.column (direction.offset amount).1 nonempty
      have row := Position.shift_le canvas.cursor.row (direction.offset amount).2 high
      exact ⟨⟨Position.one_le_shift _ _ _, Position.one_le_shift _ _ _⟩,
        Nat.le_trans column (Nat.le_max_left _ _),
        fun limited => Nat.le_trans row (bounded.limited limited)⟩
    | place row column =>
      -- The one way out of the width, as far as a parameter can name a column.
      obtain ⟨-, given, reachable⟩ := inRange
      rw [perform, obey, cursor_place, Position.limited_column]
      refine ⟨Position.limited_positive (Position.ofCoordinates_positive _ _) limit, ?_,
        Position.limited_row_le _⟩
      exact Nat.le_trans (Nat.max_le.mpr ⟨reachable, by decide⟩) (Nat.le_max_right _ _)
    | eraseDisplay extent =>
      cases extent with
      | all => exact ⟨⟨Nat.le_refl _, Nat.le_refl _⟩, first, fun limited => limited⟩
      | toEnd | toStart | scrollback => exact stays
    | restore =>
      exact ⟨bounded.saved.toPositive, bounded.saved.column_le,
        fun limited => Nat.le_trans bounded.saved.row_le (bounded.limited limited)⟩
    | eraseLine | save | rendition | ignored | unhandled => exact stays

theorem pens_perform (limit : Nat) (event : Event) {canvas : Canvas width}
    (bounded : canvas.Bounded limit) :
    (canvas.perform limit event).1.pen.InRange
      ∧ ((canvas.perform limit event).1.saved = canvas.saved
        ∨ (canvas.perform limit event).1.saved = ⟨canvas.cursor, canvas.pen⟩) := by
  cases event with
  | draw | carriageReturn | lineFeed | stop | silence | rejected => exact ⟨bounded.pen, .inl rfl⟩
  | command command =>
    cases command with
    | eraseDisplay extent => cases extent <;> exact ⟨bounded.pen, .inl rfl⟩
    | save => exact ⟨bounded.pen, .inr rfl⟩
    | restore => exact ⟨bounded.savedPen, .inl rfl⟩
    | rendition codes => exact ⟨bounded.pen.merge codes, .inl rfl⟩
    | move | place | eraseLine | ignored | unhandled => exact ⟨bounded.pen, .inl rfl⟩

theorem Bounded.seen {limit : Nat} {canvas : Canvas width} (bounded : canvas.Bounded limit)
    (place : Position) : (canvas.screen.seen place).pen.InRange := by
  rw [Screen.seen]
  cases found : canvas.screen.cell? place with
  | none => exact Pen.inRange_plain
  | some cell => exact bounded.cells place cell found

theorem Bounded.stroke {limit : Nat} {canvas : Canvas width} (bounded : canvas.Bounded limit)
    {event : Event} {stroke : Stroke} (taken : canvas.stroke? event = some stroke) :
    stroke.cell.pen.InRange := by
  unfold stroke? at taken
  split at taken
  · obtain rfl := Option.some.inj taken
    exact bounded.pen
  · obtain rfl := Option.some.inj taken
    exact Pen.inRange_plain
  · obtain rfl := Option.some.inj taken
    exact Pen.inRange_plain
  · cases taken

/-- No event leads out of the bounds. -/
theorem Bounded.perform {limit : Nat} {canvas : Canvas width} (bounded : canvas.Bounded limit)
    {event : Event} (inRange : event.InRange) (nonempty : 0 < width) :
    (canvas.perform limit event).1.Bounded limit := by
  have height := canvas.height_perform limit event bounded.cursor
  obtain ⟨positive, column, row⟩ := cursor_perform limit inRange nonempty bounded
  obtain ⟨pen, saved⟩ := pens_perform limit event bounded
  have grown : canvas.screen.height ≤ (canvas.perform limit event).1.screen.height := by
    rw [height]
    exact Nat.le_max_left _ _
  have inside : (canvas.perform limit event).1.cursor.row
      ≤ (canvas.perform limit event).1.screen.height := by
    rw [height]
    exact Nat.le_max_right _ _
  refine ⟨⟨positive, column, inside⟩, ?_, pen, ?_, ?_, ?_⟩
  · -- What was saved long ago is still on the screen, because no row ever goes away.
    rcases saved with kept | taken
    · rw [kept]
      exact bounded.saved.mono grown
    · rw [taken]
      exact bounded.cursor.mono grown
  · rcases saved with kept | taken
    · rw [kept]
      exact bounded.savedPen
    · rw [taken]
      exact bounded.pen
  · intro place cell found
    obtain ⟨within, rfl⟩ := Screen.seen_of_cell? found
    rw [seen_perform limit event bounded.cursor.toPositive within]
    cases taken : canvas.stroke? event with
    | none => exact bounded.seen place
    | some stroke =>
      rw [Option.toList_some, List.foldl_cons, List.foldl_nil, Stroke.paint]
      split
      · exact bounded.stroke taken
      · exact bounded.seen place
  · intro limited
    rw [height]
    exact Nat.max_le.mpr ⟨bounded.limited limited, row limited⟩

theorem Bounded.blank (nonempty : 0 < width) (limit : Nat) : (blank width).Bounded limit := by
  have first : 1 ≤ max width Parameter.largest := Nat.le_trans nonempty (Nat.le_max_left _ _)
  have home : Position.Within width 1 {} := ⟨⟨Nat.le_refl _, Nat.le_refl _⟩, first, Nat.le_refl _⟩
  refine ⟨home, home, Pen.inRange_plain, Pen.inRange_plain, ?_, fun limited => limited⟩
  intro place cell found
  obtain ⟨-, rfl⟩ := Screen.seen_of_cell? found
  rw [Canvas.blank, Screen.seen_blank]
  exact Pen.inRange_plain

end Canvas

end AnsiCanvas
