import AnsiCanvas.Proofs.Pen.Appearance
import AnsiCanvas.Proofs.Pen.Range

/-! # Effective pens

Of a pen nothing is written but its styles and the colors that its layers show.  The effective
pen has just these colors, so it is written like the pen itself, and whoever wants to know
whether two pens are written alike compares effective pens.

Showing a color a second time changes nothing: a shown color is never unset, and a palette entry
that stands for a classic color is no classic color any more.
-/

namespace AnsiCanvas

namespace Color

theorem resolve_resolve (layer : Layer) (color : Color) :
    (color.resolve layer).resolve layer = color.resolve layer := by
  cases color <;> rfl

theorem resolve_downsample (layer : Layer) (intense : Bool) (color : Color) :
    ((color.resolve layer).downsample intense).resolve layer
      = (color.resolve layer).downsample intense := by
  cases color <;> rfl

theorem downsample_downsample (first second : Bool) (color : Color) :
    (color.downsample first).downsample second = color.downsample first := by
  cases color <;> rfl

theorem InRange.resolve {color : Color} (inRange : color.InRange) (layer : Layer) :
    (color.resolve layer).InRange := by
  cases color with
  | unset => cases layer <;> simp [Color.resolve, InRange, Layer.unsetIndex]
  | classic | palette | rgb => exact inRange

theorem InRange.downsample {color : Color} (inRange : color.InRange) (intense : Bool) :
    (color.downsample intense).InRange := by
  cases color with
  | classic => trivial
  | unset | palette | rgb => exact inRange

theorem standard_of_inRange {color : Color} (inRange : color.InRange) :
    color.standard = color := by
  cases color with
  | classic index => exact if_pos inRange
  | unset | palette | rgb => rfl

end Color

namespace Pen

/-- The pen whose colors are those that a pen shows. -/
def effective (pen : Pen) (downsample : Bool) : Pen where
  styles := pen.styles
  foreground := pen.shown downsample .foreground
  background := pen.shown downsample .background

@[simp] theorem styles_effective (pen : Pen) (downsample : Bool) :
    (pen.effective downsample).styles = pen.styles := rfl

@[simp] theorem shown_effective (pen : Pen) (downsample : Bool) (layer : Layer) :
    (pen.effective downsample).shown downsample layer = pen.shown downsample layer := by
  have color : (pen.effective downsample).color layer = pen.shown downsample layer := by
    cases layer <;> rfl
  rw [shown, color, styles_effective]
  cases downsample with
  | false => exact Color.resolve_resolve layer _
  | true =>
    simp only [shown, ↓reduceIte]
    rw [Color.resolve_downsample, Color.downsample_downsample]

/-- What is written between two pens is written between their effective pens. -/
theorem changes_effective (pen : Pen) (before : Option Pen) (downsample : Bool) :
    (pen.effective downsample).changes (before.map (·.effective downsample)) downsample
      = pen.changes before downsample := by
  cases before <;>
    simp only [changes, Option.map_none, Option.map_some, styles_effective, shown_effective]

theorem escape_effective (pen : Pen) (before : Option Pen) (options : EscapeOptions) :
    (pen.effective options.downsample).escape (before.map (·.effective options.downsample)) options
      = pen.escape before options := by
  rw [escape_eq_spell, escape_eq_spell, changes_effective]

theorem InRange.shown {pen : Pen} (inRange : pen.InRange) (downsample : Bool) (layer : Layer) :
    (pen.shown downsample layer).InRange := by
  have color : (pen.color layer).InRange := by
    cases layer with
    | foreground => exact inRange.foreground
    | background => exact inRange.background
  rw [Pen.shown]
  split
  · exact (color.resolve layer).downsample _
  · exact color.resolve layer

/-- The codes of a pen in range lose nothing of its effective pen. -/
theorem appearance_of_inRange {pen : Pen} (inRange : pen.InRange) (downsample : Bool) :
    pen.appearance downsample = pen.effective downsample := by
  rw [appearance, Color.standard_of_inRange (inRange.shown downsample .foreground),
    Color.standard_of_inRange (inRange.shown downsample .background)]
  rfl

end Pen

end AnsiCanvas
