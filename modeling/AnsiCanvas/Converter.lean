import AnsiCanvas.Scan

/-! # Converters

A document is scanned onto a canvas, and only when that has come to a good end is the
screen written.  So a document that fails while it is scanned leaves no output, and one
that fails while it is written leaves a beginning of it.
-/

namespace AnsiCanvas

/-- Where a document comes from: its bytes, and what is said if they cannot be read to
    the end of it. -/
structure Source where
  bytes : List UInt8
  failure : Option String := none

structure Summary where
  /-- The bytes taken, a stop byte included. -/
  bytesRead : Nat
  rows : Nat
  diagnostics : Nat
  deriving DecidableEq, Repr

structure Outcome where
  result : Except Failure Summary
  notices : Array Notice
  outlet : Outlet

structure Converter where
  settings : Settings
  width_pos : 0 < settings.width

namespace Converter

/-- A converter with the given settings, unless no screen can have their width. -/
def ofSettings (settings : Settings) : Except Failure Converter :=
  if width_pos : 0 < settings.width then .ok ⟨settings, width_pos⟩
  else .error (.invalidWidth settings.width)

def scan (converter : Converter) (source : Source) (listening : Bool) :
    Scan converter.settings.width × Option Failure :=
  match Scan.run converter.settings source.bytes (Scan.start converter.settings listening) with
  | (scan, .exhausted) => (scan, source.failure.map (Failure.read scan.offset))
  | (scan, .stopped) => (scan, none)
  | (scan, .failed failure) => (scan, some failure)

/-- Converts a document, writing the picture to an outlet.  Diagnostics are kept when
    somebody is listening. -/
def convert (converter : Converter) (source : Source) (outlet : Outlet) (listening : Bool) :
    Outcome :=
  match converter.scan source listening with
  | (scan, some failure) => ⟨.error failure, scan.journal.notices, outlet⟩
  | (scan, none) =>
    let screen := scan.canvas.screen
    let summary := ⟨scan.offset, screen.height, scan.journal.count⟩
    match screen.writeTo converter.settings.renderOptions outlet with
    | .ok _ outlet => ⟨.ok summary, scan.journal.notices, outlet⟩
    | .error refusal outlet => ⟨.error (.write refusal), scan.journal.notices, outlet⟩

def convertText (converter : Converter) (source : Source) (listening : Bool) :
    Except Failure String × Array Notice :=
  let outcome := converter.convert source {} listening
  (outcome.result.map fun _ => outcome.outlet.text, outcome.notices)

end Converter

end AnsiCanvas
