import AnsiCanvas.Charset
import AnsiCanvas.Diagnostic
import AnsiCanvas.Event

/-! # The canvas

The screen together with the cursor, the pen and the one saved cursor, and how
events change them.  Every event can be carried out; what is wrong with one is told
by diagnostics, of which a single event has at most two.  A row limit of zero is
none.
-/

namespace AnsiCanvas

structure Canvas (width : Nat) where
  screen : Screen width
  cursor : Position := {}
  pen : Pen := {}
  saved : SavedCursor := {}
  deriving DecidableEq

namespace Canvas

variable {width : Nat}

def blank (width : Nat) : Canvas width := ⟨.blank width, {}, {}, {}⟩

instance : Inhabited (Canvas width) := ⟨blank width⟩

/-- The diagnostic for a cursor that was held at the row limit. -/
def overLimit (limit : Nat) (exceeded : Option Nat) : List Diagnostic :=
  exceeded.toList.map fun row => .rowLimit row limit

/-- Draws a byte at the cursor, if the cursor is on the canvas, and moves on. -/
def draw (limit : Nat) (byte : UInt8) : Canvas width → Canvas width × List Diagnostic
  | ⟨screen, cursor, pen, saved⟩ =>
    let (screen, fault) := screen.put cursor (Charset.glyph byte) pen
    -- The cursor moves on even if nothing could be drawn.  It has no way on only where the
    -- addresses end, and no canvas is so high that a document gets there.
    let (screen, cursor, exceeded) := (screen.advance? cursor limit).getD (screen, cursor, none)
    (⟨screen, cursor, pen, saved⟩,
      fault.toList.map .invalidPosition ++ overLimit limit exceeded)

/-- Moves the cursor down a row, keeping its column.  The screen grows down to it. -/
def lineFeed (limit : Nat) : Canvas width → Canvas width × List Diagnostic
  | ⟨screen, cursor, pen, saved⟩ =>
    let below : Position := ⟨cursor.column, Count.add cursor.row 1⟩
    let (cursor, exceeded) := below.limited limit
    (⟨screen.touch cursor.row, cursor, pen, saved⟩, overLimit limit exceeded)

def place (limit row column : Nat) : Canvas width → Canvas width × List Diagnostic
  | ⟨screen, _, pen, saved⟩ =>
    -- Held first and placed afterwards, so the screen never grows past the limit.
    let (target, exceeded) := (Position.ofCoordinates column row).limited limit
    let (screen, cursor) := screen.moveTo target.column target.row
    (⟨screen, cursor, pen, saved⟩, overLimit limit exceeded)

/-- Erases part of the screen.  Only erasing all of it for good sends the cursor
    home. -/
def eraseDisplay (extent : DisplayErase) : Canvas width → Canvas width
  | ⟨screen, cursor, pen, saved⟩ =>
    match extent with
    | .toEnd => ⟨screen.eraseToEnd cursor, cursor, pen, saved⟩
    | .toStart => ⟨screen.eraseToStart cursor, cursor, pen, saved⟩
    | .all => ⟨screen.eraseAll, .home, pen, saved⟩
    | .scrollback => ⟨screen.eraseAll, cursor, pen, saved⟩

def obey (limit : Nat) (command : Command) (canvas : Canvas width) :
    Canvas width × List Diagnostic :=
  match command with
  | .move direction amount =>
    let (right, down) := direction.offset amount
    ({ canvas with cursor := canvas.screen.move canvas.cursor right down }, [])
  | .place row column => canvas.place limit row column
  | .eraseDisplay extent => (canvas.eraseDisplay extent, [])
  | .eraseLine extent =>
    match canvas with
    | ⟨screen, cursor, pen, saved⟩ => (⟨screen.eraseLine cursor extent, cursor, pen, saved⟩, [])
  | .save => ({ canvas with saved := ⟨canvas.cursor, canvas.pen⟩ }, [])
  | .restore =>
    match canvas with
    | ⟨screen, _, _, saved⟩ =>
      (⟨screen.touch saved.position.row, saved.position, saved.pen, saved⟩, [])
  | .rendition codes =>
    -- The changes up to a code that cannot be followed stay.
    let (pen, error) := canvas.pen.merge codes
    ({ canvas with pen := pen }, error.toList.map .rendition)
  | .ignored _ => (canvas, [])
  | .unhandled letter => (canvas, [.unhandledCommand letter])

def perform (limit : Nat) (event : Event) (canvas : Canvas width) :
    Canvas width × List Diagnostic :=
  match event with
  | .draw byte => canvas.draw limit byte
  | .carriageReturn => ({ canvas with cursor := canvas.cursor.carriageReturn }, [])
  | .lineFeed => canvas.lineFeed limit
  | .command command => canvas.obey limit command
  | .rejected error => (canvas, [.malformedEscape error])
  | .stop | .silence => (canvas, [])

end Canvas

end AnsiCanvas
