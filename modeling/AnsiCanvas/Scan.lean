import AnsiCanvas.Canvas
import AnsiCanvas.Failure

/-! # Scanning

A document is taken byte by byte.  Each byte becomes an event, and the event is either
the end of the scan or something to do on the canvas, noted in the journal if there is
something wrong with it.
-/

namespace AnsiCanvas

inductive Ending
  | exhausted
  | stopped
  | failed (failure : Failure)
  deriving DecidableEq, Repr

def Event.ending? (unhandled : UnhandledPolicy) (offset : Nat) : Event → Option Ending
  | stop => some .stopped
  | rejected (.unknownTerminator byte _) => some (.failed (.unknownTerminator byte offset))
  | command (.unhandled letter) =>
    match unhandled with
    | .abort => some (.failed (.unhandledCommand letter offset))
    | .skip => none
  | _ => none

structure Scan (width : Nat) where
  collector : Collector
  canvas : Canvas width
  journal : Journal
  /-- The number of bytes taken. -/
  offset : Nat := 0

namespace Scan

variable {width : Nat}

def start (settings : Settings) (listening : Bool) : Scan settings.width where
  collector := { strict := settings.strict }
  canvas := .blank settings.width
  journal := .blank listening

/-- Takes a byte.  The answer tells whether the scan ends with it. -/
def step (settings : Settings) (byte : UInt8) : Scan width → Scan width × Option Ending
  | ⟨collector, canvas, journal, offset⟩ =>
    let (collector, event) := Event.ofByte collector byte
    match event.ending? settings.unhandled offset with
    -- The byte that ends the scan counts as taken.
    | some ending => (⟨collector, canvas, journal, offset + 1⟩, some ending)
    | none =>
      let (canvas, found) := canvas.perform settings.rowLimit event
      (⟨collector, canvas, journal.record found offset, offset + 1⟩, none)

def run (settings : Settings) : List UInt8 → Scan width → Scan width × Ending
  | [], scan => (scan, .exhausted)
  | byte :: rest, scan =>
    match scan.step settings byte with
    | (scan, none) => run settings rest scan
    | (scan, some ending) => (scan, ending)

end Scan

end AnsiCanvas
