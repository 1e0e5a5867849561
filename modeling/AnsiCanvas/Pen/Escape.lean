import AnsiCanvas.Pen.Change

/-! # Pens as escapes

The changes that turn one pen into another, as far as they can be seen, and the
escape that spells them.  A code that clears two styles may take away one that
must stay, so what was cleared along with another style is set again after it.
-/

namespace AnsiCanvas

structure EscapeOptions where
  /-- Classic colors are written as fixed palette entries. -/
  downsample : Bool := false
  /-- The escape character itself is shown instead of sent. -/
  visible : Bool := false
  deriving DecidableEq, Repr

/-- The escape that returns a terminal to its own attributes. -/
def resetEscape : String := "\x1b[0m"

/-- What an escape begins with: the control sequence introducer, or a
    highlighted picture of it. -/
def EscapeOptions.opening (options : EscapeOptions) : String :=
  if options.visible then "\x1b[96m^[\x1b[0m[" else "\x1b["

namespace Pen

/-- The clearings needed to get from one set of styles to another: one for each
    group that loses a style. -/
def clearings (before after : StyleSet) : List Clearing :=
  Clearing.written.filter fun clearing =>
    clearing.styles.any fun style => before.contains style && !after.contains style

/-- The styles to set after the clearings: the new ones, and those that were
    cleared although they stay. -/
def additions (before after : StyleSet) : List Style :=
  let cleared := clearings before after
  Style.all.filter fun style =>
    after.contains style &&
      (!before.contains style || cleared.any fun clearing => clearing.styles.contains style)

/-- The changes that make a pen out of the one before it, or out of none at all,
    leaving out what cannot be seen to differ. -/
def changes (pen : Pen) (before : Option Pen) (downsample : Bool) : List Change :=
  let colorOf (layer : Layer) := Change.color layer (pen.shown downsample layer)
  match before with
  | none =>
    (Style.all.filter pen.styles.contains).map .set
      ++ [Layer.foreground, .background].map colorOf
  | some before =>
    (clearings before.styles pen.styles).map .clear
      ++ (additions before.styles pen.styles).map .set
      ++ ([Layer.foreground, .background].filter fun layer =>
            pen.shown downsample layer != before.shown downsample layer).map colorOf

/-- The text that spells a list of changes, empty when there is none. -/
def spell (options : EscapeOptions) (changes : List Change) : String :=
  match changes.flatMap Change.codes with
  | [] => ""
  | codes => options.opening ++ ";".intercalate (codes.map Nat.repr) ++ "m"

theorem clearings_self (styles : StyleSet) : clearings styles styles = [] := by
  simp [clearings]

theorem additions_self (styles : StyleSet) : additions styles styles = [] := by
  simp [additions, clearings_self]

theorem changes_self (pen : Pen) (downsample : Bool) : pen.changes (some pen) downsample = [] := by
  simp [changes, clearings_self, additions_self]

/-- The escape that makes a pen out of the one before it, or out of none.  Most
    neighbours share their pen, so that case is answered first. -/
def escape (pen : Pen) (before : Option Pen) (options : EscapeOptions) : String :=
  if before = some pen then "" else spell options (pen.changes before options.downsample)

theorem escape_eq_spell (pen : Pen) (before : Option Pen) (options : EscapeOptions) :
    pen.escape before options = spell options (pen.changes before options.downsample) := by
  unfold escape
  split
  · next same => rw [same, changes_self]; rfl
  · rfl

end Pen

end AnsiCanvas
