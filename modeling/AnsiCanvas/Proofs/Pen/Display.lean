import AnsiCanvas.Proofs.Pen.Appearance

/-! # What is displayed of a pen

The text mode has sixteen colors, eight of normal intensity and a bright one of each hue.  A layer
shows one of them, unless its pen names a palette entry or color components: the one that is
chosen, or light grey in front and black behind.  Sixteen palette entries can imitate them, and a
bold foreground is then always imitated by the bright color.

This says of each pen what is displayed for it, not by which steps it is found.
-/

namespace AnsiCanvas

namespace TextMode

/-- The color shown on a layer where none is chosen. -/
def unchosen : Layer → Fin 16
  | .foreground => 7
  | .background => 0

/-- The bright color of the hue of a color. -/
def bright (number : Nat) : Fin 16 := ⟨8 + number % 8, by omega⟩

/-- The palette entries nearest to the sixteen colors. -/
def palette : Vector UInt8 16 :=
  #v[16, 124, 34, 130, 19, 127, 37, 248, 240, 203, 83, 227, 63, 207, 87, 15]

theorem palette_normal (hue : Fin 8) : palette[hue.val] = Color.darkPalette[hue] := by
  decide +revert

theorem palette_bright (hue : Fin 8) : palette[8 + hue.val] = Color.lightPalette[hue] := by
  decide +revert

end TextMode

namespace Color

/-- The color of the text mode that is shown for a color on a layer, `unchosen` being the one shown
    where none is chosen.  Those after the sixteenth count as bright. -/
def textMode? (unchosen : Fin 16) : Color → Option (Fin 16)
  | unset => some unchosen
  | classic index =>
    some (if small : index.toNat < 16 then ⟨index.toNat, small⟩ else TextMode.bright index.toNat)
  | palette _ | rgb _ _ _ => none

/-- The color displayed for a color, with the colors of the text mode `imitated` or left to the
    terminal. -/
def displayed (color : Color) (unchosen : Fin 16) (imitated bold : Bool) : Color :=
  match color.textMode? unchosen with
  | none => color
  | some number =>
    if imitated then palette TextMode.palette[if bold then TextMode.bright number else number]
    else classic (UInt8.ofNat number)

/-- The imitation of a classic color.  Only colors of normal intensity have two. -/
theorem downsample_eq_displayed (index : UInt8) (unchosen : Fin 16) (bold : Bool) :
    (classic index).downsample bold = (classic index).displayed unchosen true bold := by
  have bright := TextMode.palette_bright ⟨index.toNat % 8, Nat.mod_lt _ (by omega)⟩
  have eight : 8 ≤ index ↔ 8 ≤ index.toNat := UInt8.le_iff_toNat_le
  by_cases small : index.toNat < 16
  · cases bold with
    | true => simp [downsample, displayed, textMode?, small, TextMode.bright, ← bright]
    | false =>
      by_cases high : 8 ≤ index.toNat
      · have above : 8 + index.toNat % 8 = index.toNat := by omega
        simp [downsample, displayed, textMode?, small, eight, high, ← bright, above]
      · have normal := TextMode.palette_normal ⟨index.toNat, by omega⟩
        have same : index.toNat % 8 = index.toNat := by omega
        simp [downsample, displayed, textMode?, small, eight, high, normal, same]
  · have high : 8 ≤ index.toNat := by omega
    cases bold <;>
      simp [downsample, displayed, textMode?, small, eight, high, TextMode.bright, ← bright]

/-- A classic color is left as its codes are understood. -/
theorem standard_eq_displayed (index : UInt8) (unchosen : Fin 16) (bold : Bool) :
    (classic index).standard = (classic index).displayed unchosen false bold := by
  have sixteen : index < 16 ↔ index.toNat < 16 := UInt8.lt_iff_toNat_lt
  by_cases small : index.toNat < 16
  · simp [standard, displayed, textMode?, sixteen, small]
  · have number : 8 + index % 8 = UInt8.ofNat (8 + index.toNat % 8) := by
      apply UInt8.toNat_inj.mp
      simp
    simp [standard, displayed, textMode?, sixteen, small, TextMode.bright, number]

/-- What a layer shows is displayed, whatever its color and whether it is chosen. -/
theorem standard_resolve (color : Color) (layer : Layer) (downsample bold : Bool) :
    (if downsample then (color.resolve layer).downsample bold else color.resolve layer).standard
      = color.displayed (TextMode.unchosen layer) downsample bold := by
  cases color with
  | unset => cases layer <;> cases downsample <;> cases bold <;> rfl
  | classic index =>
    cases downsample with
    | false => exact standard_eq_displayed index _ bold
    | true => exact downsample_eq_displayed index _ bold
  | palette | rgb => cases downsample <;> rfl

end Color

/-- The pen displayed for a pen: its styles, and a color for each layer. -/
def Pen.displayed (pen : Pen) (imitated : Bool) : Pen where
  styles := pen.styles
  foreground := pen.foreground.displayed (TextMode.unchosen .foreground) imitated
    (pen.styles.contains .bold)
  background := pen.background.displayed (TextMode.unchosen .background) imitated false

theorem Pen.appearance_eq_displayed (pen : Pen) (downsample : Bool) :
    pen.appearance downsample = pen.displayed downsample := by
  have front := pen.foreground.standard_resolve .foreground downsample (pen.styles.contains .bold)
  have back := pen.background.standard_resolve .background downsample false
  simp only [appearance, displayed, ← front, ← back]
  rfl

end AnsiCanvas
