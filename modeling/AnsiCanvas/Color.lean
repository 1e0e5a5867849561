/-! # Colors

The four ways in which an escape can name a color, the codes that select a color
on a layer, and the fixed table entries that imitate the text-mode palette
whatever the theme of the terminal.
-/

namespace AnsiCanvas

inductive Layer
  | foreground
  | background
  deriving DecidableEq, Repr

inductive Color
  /-- The color a pen has before any is chosen. -/
  | unset
  /-- One of the sixteen classic colors, 8 to 15 being the bright ones. -/
  | classic (index : UInt8)
  | palette (index : UInt8)
  | rgb (red green blue : UInt8)
  deriving DecidableEq, Repr, Inhabited

namespace Layer

/-- The code of the first of the eight normal colors. -/
def normalCode : Layer → Nat
  | foreground => 30
  | background => 40

/-- The code of the first of the eight bright colors. -/
def brightCode : Layer → Nat
  | foreground => 90
  | background => 100

/-- The code that announces a palette entry or color components. -/
def extendedCode (layer : Layer) : Nat := layer.normalCode + 8

def unsetCode (layer : Layer) : Nat := layer.normalCode + 9

/-- The classic color that an unset layer shows: light grey on black. -/
def unsetIndex : Layer → UInt8
  | foreground => 7
  | background => 0

end Layer

namespace Color

/-- Palette entries nearest to the eight colors at normal intensity. -/
def darkPalette : Vector UInt8 8 := #v[16, 124, 34, 130, 19, 127, 37, 248]

/-- Palette entries nearest to the eight colors at high intensity. -/
def lightPalette : Vector UInt8 8 := #v[240, 203, 83, 227, 63, 207, 87, 15]

/-- The classic color that a single code selects on a layer. -/
def ofCode? (layer : Layer) (code : Nat) : Option Color :=
  if layer.normalCode ≤ code ∧ code ≤ layer.normalCode + 7 then
    some (.classic (UInt8.ofNat (code - layer.normalCode)))
  else if layer.brightCode ≤ code ∧ code ≤ layer.brightCode + 7 then
    some (.classic (UInt8.ofNat (code - layer.brightCode + 8)))
  else
    none

/-- The color shown for a color on a layer: an unset one shows what the layer
    starts with. -/
def resolve (layer : Layer) : Color → Color
  | unset => classic layer.unsetIndex
  | color => color

/-- Replaces a classic color by a fixed palette entry.  Bright colors take the
    light table, and so do normal ones that are drawn `intense`. -/
def downsample (intense : Bool) : Color → Color
  | classic index =>
    let column : Fin 8 := ⟨index.toNat % 8, Nat.mod_lt _ (by decide)⟩
    palette (if 8 ≤ index ∨ intense then lightPalette[column] else darkPalette[column])
  | color => color

def codes (layer : Layer) : Color → List Nat
  | unset => [layer.unsetCode]
  | classic index =>
    if index < 8 then [layer.normalCode + index.toNat]
    else [layer.brightCode + index.toNat % 8]
  | palette index => [layer.extendedCode, 5, index.toNat]
  | rgb red green blue => [layer.extendedCode, 2, red.toNat, green.toNat, blue.toNat]

end Color

end AnsiCanvas
