import AnsiCanvas.Pen.Basic

/-! # Cells

One place of the canvas: at most one mark, and the pen it was drawn with.
-/

namespace AnsiCanvas

structure Cell where
  /-- What is drawn here; nothing for a blank. -/
  mark : Option Char := none
  pen : Pen := {}
  deriving DecidableEq, Repr

namespace Cell

def blank : Cell := {}

instance : Inhabited Cell := ⟨blank⟩

/-- The cell after a character is drawn with a pen.  A space leaves no mark. -/
def draw (character : Char) (pen : Pen) : Cell :=
  ⟨if character = ' ' then none else some character, pen⟩

def isUnmarked (cell : Cell) : Bool := cell.mark.isNone

def glyph (cell : Cell) : Char := cell.mark.getD ' '

@[simp] theorem glyph_draw (character : Char) (pen : Pen) :
    (draw character pen).glyph = character := by
  by_cases h : character = ' ' <;> simp [draw, glyph, h]

@[simp] theorem pen_draw (character : Char) (pen : Pen) : (draw character pen).pen = pen := rfl

end Cell

end AnsiCanvas
