import AnsiCanvas.Pen.Basic

/-! # Changes to a pen

A graphic rendition escape is a list of codes, and the codes spell a list of
changes.  A change takes one code, or up to five when it names a color by its
palette entry or its components.  `Change.codes` writes a change and `Change.read`
reads the first change of a list back.
-/

namespace AnsiCanvas

inductive Change
  | reset
  | set (style : Style)
  | clear (clearing : Clearing)
  | color (layer : Layer) (selected : Color)
  deriving DecidableEq, Repr

inductive RenditionError
  | unknownCode (code : Nat)
  /-- What follows the code is not a palette entry nor three components. -/
  | extendedColor (code : Nat)
  deriving DecidableEq, Repr

namespace RenditionError

def message : RenditionError → String
  | unknownCode code => "unrecognized graphic rendition code " ++ code.repr
  | extendedColor code => "malformed extended color sequence after code " ++ code.repr

end RenditionError

namespace Change

def codes : Change → List Nat
  | reset => [0]
  | set style => [style.code]
  | clear clearing => [clearing.code]
  | color layer selected => selected.codes layer

/-- A color spelled by the codes after an extended color code, and how many of
    them it takes. -/
def readExtended : List Nat → Option (Color × Nat)
  | 5 :: index :: _ =>
    if index < 256 then some (.palette (UInt8.ofNat index), 2) else none
  | 2 :: red :: green :: blue :: _ =>
    if red < 256 ∧ green < 256 ∧ blue < 256 then
      some (.rgb (UInt8.ofNat red) (UInt8.ofNat green) (UInt8.ofNat blue), 4)
    else none
  | _ => none

def readColor (layer : Layer) (code : Nat) (rest : List Nat) :
    Option (Except RenditionError (Change × Nat)) :=
  if code = layer.unsetCode then
    some (.ok (color layer .unset, 0))
  else if code = layer.extendedCode then
    match readExtended rest with
    | some (selected, taken) => some (.ok (color layer selected, taken))
    | none => some (.error (.extendedColor code))
  else
    (Color.ofCode? layer code).map fun selected => .ok (color layer selected, 0)

/-- The change that starts with `code`, and how many codes of `rest` it takes too. -/
def read (code : Nat) (rest : List Nat) : Except RenditionError (Change × Nat) :=
  -- The kinds of changes have no code in common, so their order is of no consequence.
  if code = 0 then .ok (reset, 0)
  else if let some style := Style.ofCode? code then .ok (set style, 0)
  else if let some clearing := Clearing.ofCode? code then .ok (clear clearing, 0)
  else if let some answer := readColor .foreground code rest then answer
  else if let some answer := readColor .background code rest then answer
  else .error (.unknownCode code)

end Change

namespace Pen

def apply (pen : Pen) : Change → Pen
  | .reset => plain
  | .set style => { pen with styles := pen.styles.insert style }
  | .clear clearing => { pen with styles := clearing.apply pen.styles }
  | .color layer selected => pen.withColor selected layer

/-- Follows a list of codes from left to right.  At a code that cannot be
    followed the pen keeps the changes made so far and the rest is dropped. -/
def merge (pen : Pen) : List Nat → Pen × Option RenditionError
  | [] => (pen, none)
  | code :: rest =>
    match Change.read code rest with
    | .ok (change, taken) => merge (pen.apply change) (rest.drop taken)
    | .error error => (pen, some error)
termination_by codes => codes.length
decreasing_by
  rw [List.length_drop, List.length_cons]
  omega

end Pen

end AnsiCanvas
