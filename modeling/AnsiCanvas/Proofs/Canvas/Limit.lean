import AnsiCanvas.Proofs.Canvas.Bounds

/-! # The row limit

Three events can lead past the rows there are: a byte is drawn, the line is fed and the cursor
is placed.  Each of them makes for a target, and the limit acts on this target and on nothing
else.  A target past the limit is held at it and reported, and every other is reached as if
there were no limit.
-/

namespace AnsiCanvas

variable {width : Nat}

namespace Position

theorem limited_of_within {position : Position} {limit : Nat}
    (within : limit = 0 ∨ position.row ≤ limit) : position.limited limit = (position, none) := by
  rw [limited, if_neg (by omega)]

/-- A position is left alone, or the limit holds it and says so. -/
theorem limited_or_held (position : Position) (limit : Nat) :
    position.limited limit = (position, none)
      ∨ 0 < limit ∧ limit < position.row
        ∧ position.limited limit = ({ position with row := limit }, some position.row) := by
  rw [limited]
  split
  · next held => exact .inr ⟨held.1, held.2, rfl⟩
  · exact .inl rfl

end Position

namespace Canvas

/-- The position that an event makes for, if the row limit has a say in it. -/
def target? (canvas : Canvas width) : Event → Option Position
  | .draw _ => canvas.cursor.next? width
  | .lineFeed => some ⟨canvas.cursor.column, Count.add canvas.cursor.row 1⟩
  | .command (.place row column) => some (.ofCoordinates column row)
  | .command _ | .carriageReturn | .rejected _ | .stop | .silence => none

section

variable {canvas : Canvas width} {event : Event} {limit : Nat}

theorem mem_overLimit {diagnostic : Diagnostic} {exceeded : Option Nat} :
    diagnostic ∈ overLimit limit exceeded
      ↔ ∃ row, exceeded = some row ∧ diagnostic = .rowLimit row limit := by
  cases exceeded <;> simp [overLimit]

theorem cursor_of_target? {target : Position} (makes : canvas.target? event = some target) :
    (canvas.perform limit event).1.cursor = (target.limited limit).1 := by
  cases event with
  | draw byte => rw [perform, draw_of_next limit byte makes]
  | lineFeed =>
    obtain rfl := Option.some.inj makes
    rfl
  | carriageReturn | rejected | stop | silence => cases makes
  | command asked =>
    cases asked with
    | place row column =>
      obtain rfl := Option.some.inj makes
      exact cursor_place limit row column canvas
    | move | eraseDisplay | eraseLine | save | restore | rendition | ignored | unhandled =>
      cases makes

/-- A row past the limit is reported exactly where the limit holds a target. -/
theorem rowLimit_mem_iff {row bound : Nat} :
    .rowLimit row bound ∈ (canvas.perform limit event).2
      ↔ bound = limit
        ∧ ∃ target, canvas.target? event = some target
            ∧ (target.limited limit).2 = some row := by
  have held (target : Position) :
      .rowLimit row bound ∈ overLimit limit (target.limited limit).2
        ↔ bound = limit ∧ ∃ other, some target = some other
            ∧ (other.limited limit).2 = some row := by
    simp only [mem_overLimit, Diagnostic.rowLimit.injEq, Option.some.injEq, exists_eq_left']
    grind
  cases event with
  | draw byte =>
    cases onward : canvas.cursor.next? width with
    | none => simp [perform, draw_of_no_next limit byte onward, target?, onward]
    | some next =>
      rw [target?, onward, ← held]
      simp [perform, draw_of_next limit byte onward]
  | lineFeed => exact held _
  | carriageReturn | rejected | stop | silence => simp [perform, target?]
  | command asked =>
    cases asked with
    | place row column => exact held _
    | move | eraseDisplay | eraseLine | save | restore | rendition | ignored | unhandled =>
      simp [perform, obey, target?]

/-- Two limits that both leave the target of an event alone make no difference to it. -/
theorem perform_eq_of_limited {other : Nat}
    (alone : ∀ target, canvas.target? event = some target →
      target.limited limit = (target, none) ∧ target.limited other = (target, none)) :
    canvas.perform other event = canvas.perform limit event := by
  cases event with
  | draw byte =>
    cases onward : canvas.cursor.next? width with
    | none =>
      rw [perform, perform, draw_of_no_next limit byte onward, draw_of_no_next other byte onward]
    | some next =>
      obtain ⟨first, second⟩ := alone next onward
      rw [perform, perform, draw_of_next limit byte onward, draw_of_next other byte onward, first,
        second]
      rfl
  | lineFeed =>
    obtain ⟨first, second⟩ := alone _ rfl
    simp only [perform, lineFeed, first, second, overLimit]
    rfl
  | carriageReturn | rejected | stop | silence => rfl
  | command asked =>
    cases asked with
    | place row column =>
      obtain ⟨first, second⟩ := alone _ rfl
      simp only [perform, obey, place, first, second, overLimit]
      rfl
    | move | eraseDisplay | eraseLine | save | restore | rendition | ignored | unhandled => rfl

/-- An event that the limit does not hold goes the same way under every limit that leaves room
    for the screen it leads to. -/
theorem perform_of_unreached {other : Nat}
    (cursor : canvas.cursor.Within width canvas.screen.height)
    (quiet : ∀ row bound, .rowLimit row bound ∉ (canvas.perform limit event).2)
    (room : other = 0 ∨ (canvas.perform limit event).1.screen.height ≤ other) :
    canvas.perform other event = canvas.perform limit event := by
  refine perform_eq_of_limited fun target makes => ?_
  rcases target.limited_or_held limit with alone | ⟨-, -, held⟩
  · refine ⟨alone, Position.limited_of_within (room.imp id fun high => ?_)⟩
    -- The screen has grown down to the target.
    have reached : (canvas.perform limit event).1.cursor = target := by
      rw [cursor_of_target? makes, alone]
    rw [height_perform limit event cursor, reached] at high
    exact Nat.le_trans (Nat.le_max_right _ _) high
  · exact absurd (rowLimit_mem_iff.mpr ⟨rfl, target, makes, by rw [held]⟩) (quiet _ _)

/-- Where a row past the limit is reported, the cursor ends up at the limit. -/
theorem cursor_of_rowLimit {row bound : Nat}
    (found : .rowLimit row bound ∈ (canvas.perform limit event).2) :
    bound = limit ∧ 0 < limit ∧ limit < row
      ∧ (canvas.perform limit event).1.cursor.row = limit := by
  obtain ⟨rfl, target, makes, exceeded⟩ := rowLimit_mem_iff.mp found
  rw [cursor_of_target? makes]
  rcases target.limited_or_held bound with alone | ⟨positive, below, held⟩
  · rw [alone] at exceeded
    cases exceeded
  · rw [held] at exceeded ⊢
    obtain rfl := Option.some.inj exceeded
    exact ⟨rfl, positive, below, rfl⟩

end

end Canvas

end AnsiCanvas
