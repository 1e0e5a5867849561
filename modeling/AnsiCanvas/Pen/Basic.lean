import AnsiCanvas.Color
import AnsiCanvas.Style

/-! # Pens

A pen is what the escapes of the art change and what every drawn glyph keeps a
copy of: a set of styles and a color for each layer.
-/

namespace AnsiCanvas

structure Pen where
  styles : StyleSet := {}
  foreground : Color := .unset
  background : Color := .unset
  deriving DecidableEq, Repr

instance : Inhabited Pen := ⟨{}⟩

namespace Pen

def plain : Pen := {}

def isPlain (pen : Pen) : Bool := pen == plain

def color (pen : Pen) : Layer → Color
  | .foreground => pen.foreground
  | .background => pen.background

def withColor (pen : Pen) (color : Color) : Layer → Pen
  | .foreground => { pen with foreground := color }
  | .background => { pen with background := color }

/-- The color that a layer shows.  With `downsample`, classic colors become fixed
    palette entries, and bold brightens the foreground. -/
def shown (pen : Pen) (downsample : Bool) (layer : Layer) : Color :=
  let color := (pen.color layer).resolve layer
  if downsample then
    color.downsample (layer == .foreground && pen.styles.contains .bold)
  else
    color

end Pen

end AnsiCanvas
