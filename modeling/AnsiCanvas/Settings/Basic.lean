import AnsiCanvas.Screen.Rendering

/-! # Settings

Everything that can be chosen about a conversion.
-/

namespace AnsiCanvas

inductive UnhandledPolicy
  | abort
  | skip
  deriving DecidableEq, Repr

structure Settings where
  width : Nat := 80
  /-- The most bytes that the escapes and glyphs of a row may take; zero for any
      number. -/
  rowBudget : Nat := 0
  downsample : Bool := false
  visibleEscapes : Bool := false
  numberRows : Bool := false
  baseline : Baseline := .resetPerRow
  unhandled : UnhandledPolicy := .abort
  /-- Foreign final bytes end an escape sequence, and the conversion. -/
  strict : Bool := false
  /-- The last row that the cursor may reach; zero for none. -/
  rowLimit : Nat := 65536
  deriving DecidableEq, Repr

namespace Settings

instance : Inhabited Settings := ⟨{}⟩

def renderOptions (settings : Settings) : RenderOptions where
  rowBudget := settings.rowBudget
  numberRows := settings.numberRows
  baseline := settings.baseline
  escapes := ⟨settings.downsample, settings.visibleEscapes⟩

def screenWidth? (settings : Settings) : Option Nat :=
  if settings.width = 0 then none else some settings.width

def invalidWidthMessage (width : Nat) : String :=
  "invalid width " ++ width.repr ++ ": must be greater than zero"

end Settings

end AnsiCanvas
