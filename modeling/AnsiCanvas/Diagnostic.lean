import AnsiCanvas.Escape.Command
import AnsiCanvas.Pen.Change

/-! # Diagnostics

What a conversion recovers from.  Each diagnostic is noted with the offset of the
byte at which it arose.
-/

namespace AnsiCanvas

/-- Something wrong with a document that a conversion recovers from. -/
inductive Diagnostic
  | malformedEscape (error : EscapeError)
  | invalidPosition (error : PositionError)
  /-- A list of graphic rendition codes was followed in part only. -/
  | rendition (error : RenditionError)
  | unhandledCommand (letter : UInt8)
  | rowLimit (row limit : Nat)
  deriving DecidableEq, Repr

def Diagnostic.message : Diagnostic → String
  | malformedEscape error => error.message
  | invalidPosition error => error.message
  | rendition error => error.message
  | unhandledCommand letter =>
    "skipped unhandled escape command '" ++ (Char.ofNat letter.toNat).toString ++ "'"
  | rowLimit row limit =>
    "row " ++ row.repr ++ " exceeds the limit of " ++ limit.repr ++ " rows"

/-- A diagnostic and the offset of its byte. -/
structure Notice where
  diagnostic : Diagnostic
  offset : Nat
  deriving DecidableEq, Repr

/-- The diagnostics of a conversion.  They are always counted, and kept when somebody
    listens. -/
structure Journal where
  count : Nat := 0
  kept : Option (Array Notice) := none
  deriving DecidableEq, Repr

namespace Journal

def blank (listening : Bool) : Journal := ⟨0, if listening then some #[] else none⟩

def record (journal : Journal) (found : List Diagnostic) (offset : Nat) : Journal :=
  match journal with
  | ⟨count, kept⟩ =>
    ⟨count + found.length, kept.map (found.foldl fun notices d => notices.push ⟨d, offset⟩)⟩

def notices (journal : Journal) : Array Notice := journal.kept.getD #[]

end Journal

end AnsiCanvas
