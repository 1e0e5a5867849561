import AnsiCanvas.Converter
import AnsiCanvas.Proofs.Screen.Pieces
import AnsiCanvas.Proofs.Scan.Sequence

/-! # From scans to conversions

A conversion sees the end of its scan and nothing else of it.  The failure with which a scan
ends is that of the conversion, and only a scan without a failure is written.
-/

namespace AnsiCanvas

/-- The failure that a document ends with, if its source ends with a given cause. -/
def Ending.failure? (cause : Option String) (offset : Nat) : Ending → Option Failure
  | exhausted => cause.map (Failure.read offset)
  | stopped => none
  | failed failure => some failure

variable {width : Nat}

/-- What comes of a document that has been scanned. -/
def Outcome.ofScan (options : RenderOptions) (outlet : Outlet) (scan : Scan width) :
    Option Failure → Outcome
  | some failure => ⟨.error failure, scan.journal.notices, outlet⟩
  | none =>
    match scan.canvas.screen.writeTo options outlet with
    | .ok _ outlet =>
      ⟨.ok ⟨scan.offset, scan.canvas.screen.height, scan.journal.count⟩, scan.journal.notices,
        outlet⟩
    | .error refusal outlet => ⟨.error (.write refusal), scan.journal.notices, outlet⟩

namespace Outcome

variable (options : RenderOptions) (outlet : Outlet) (scan : Scan width)

theorem notices_ofScan (failure : Option Failure) :
    (ofScan options outlet scan failure).notices = scan.journal.notices := by
  cases failure with
  | some => rfl
  | none =>
    rw [ofScan]
    split <;> rfl

/-- The journal of a scan gives the notices and their number, and nothing else. -/
theorem ofScan_journal {journal : Journal} (count : journal.count = scan.journal.count)
    (failure : Option Failure) :
    ofScan options outlet { scan with journal } failure
      = { ofScan options outlet scan failure with notices := journal.notices } := by
  cases failure with
  | some => rfl
  | none =>
    simp only [ofScan, count]
    split <;> rfl

/-- Without a failure of the scan only writing can fail. -/
theorem result_ofScan_none :
    (ofScan options outlet scan none).result
        = .ok ⟨scan.offset, scan.canvas.screen.height, scan.journal.count⟩
      ∨ ∃ room, outlet.room = some room
          ∧ (ofScan options outlet scan none).result = .error (.write room.refusal) := by
  rw [ofScan, Screen.writeTo_eq]
  generalize String.join _ = text
  rcases Outlet.write_ok_or_refused text outlet with
    ⟨after, written⟩ | ⟨room, after, limited, refused⟩
  · rw [written]
    exact .inl rfl
  · rw [refused]
    exact .inr ⟨room, limited, rfl⟩

/-- A document that fails leaves an outlet of unlimited room as it was: its scan fails before
    anything is written. -/
theorem outlet_ofScan_of_error (roomy : outlet.room = none) {cause : Option Failure}
    {failure : Failure} (fails : (ofScan options outlet scan cause).result = .error failure) :
    (ofScan options outlet scan cause).outlet = outlet := by
  cases cause with
  | some => rfl
  | none =>
    rcases result_ofScan_none options outlet scan with succeeds | ⟨room, limited, -⟩
    · rw [succeeds] at fails
      cases fails
    · rw [roomy] at limited
      cases limited

end Outcome

namespace Converter

theorem scan_fst (converter : Converter) (source : Source) (listening : Bool) :
    (converter.scan source listening).1
      = (Scan.run converter.settings source.bytes
          (Scan.start converter.settings listening)).1 := by
  unfold scan
  split <;> simp_all

theorem scan_of_run {converter : Converter} {bytes : List UInt8} {listening : Bool}
    {scan : Scan converter.settings.width} {ending : Ending}
    (ended : Scan.run converter.settings bytes (Scan.start converter.settings listening)
      = (scan, ending)) (cause : Option String) :
    converter.scan ⟨bytes, cause⟩ listening = (scan, ending.failure? cause scan.offset) := by
  rw [Converter.scan, ended]
  cases ending <;> rfl

theorem strict_of_exhausted {converter : Converter} {bytes : List UInt8} {listening : Bool}
    {scan : Scan converter.settings.width}
    (exhausted : Scan.run converter.settings bytes (Scan.start converter.settings listening)
      = (scan, .exhausted)) : scan.collector.strict = converter.settings.strict := by
  have strict := Scan.strict_run converter.settings bytes (Scan.start converter.settings listening)
  rwa [exhausted] at strict

theorem isKept_of_exhausted {converter : Converter} {bytes : List UInt8} {listening : Bool}
    {scan : Scan converter.settings.width}
    (exhausted : Scan.run converter.settings bytes (Scan.start converter.settings listening)
      = (scan, .exhausted)) : scan.journal.isKept = listening := by
  have kept := Scan.isKept_run converter.settings bytes (Scan.start converter.settings listening)
  rw [exhausted] at kept
  exact kept.trans (Journal.isKept_blank listening)

theorem convert_eq_ofScan (converter : Converter) (source : Source) (outlet : Outlet)
    (listening : Bool) :
    converter.convert source outlet listening
      = .ofScan converter.settings.renderOptions outlet (converter.scan source listening).1
          (converter.scan source listening).2 := by
  rw [convert]
  rcases converter.scan source listening with ⟨scan, _ | failure⟩ <;> rfl

theorem convert_of_run (converter : Converter) {bytes : List UInt8} {listening : Bool}
    {scan : Scan converter.settings.width} {ending : Ending}
    (ended : Scan.run converter.settings bytes (Scan.start converter.settings listening)
      = (scan, ending)) (cause : Option String) (outlet : Outlet) :
    converter.convert ⟨bytes, cause⟩ outlet listening
      = .ofScan converter.settings.renderOptions outlet scan
          (ending.failure? cause scan.offset) := by
  rw [convert_eq_ofScan, scan_of_run ended]

theorem notices_convert (converter : Converter) (source : Source) (outlet : Outlet)
    (listening : Bool) :
    (converter.convert source outlet listening).notices
      = (converter.scan source listening).1.journal.notices := by
  rw [convert_eq_ofScan, Outcome.notices_ofScan]

/-- The summary of a conversion tells of its scan. -/
theorem eq_summary_of_ok {converter : Converter} {source : Source} {outlet : Outlet}
    {listening : Bool} {summary : Summary}
    (succeeds : (converter.convert source outlet listening).result = .ok summary) :
    summary
      = ⟨(converter.scan source listening).1.offset,
          (converter.scan source listening).1.canvas.screen.height,
          (converter.scan source listening).1.journal.count⟩ := by
  rw [convert_eq_ofScan] at succeeds
  cases failed : (converter.scan source listening).2 with
  | some failure =>
    rw [failed] at succeeds
    cases succeeds
  | none =>
    rw [failed] at succeeds
    obtain written | ⟨room, -, refused⟩ := Outcome.result_ofScan_none
      converter.settings.renderOptions outlet (converter.scan source listening).1
    · exact Except.ok.inj (succeeds.symm.trans written)
    · cases succeeds.symm.trans refused

/-- A document is scanned as far as its first bytes are, and then on from there. -/
theorem notices_convert_append (converter : Converter) {first : List UInt8} {listening : Bool}
    {middle : Scan converter.settings.width}
    (exhausted : Scan.run converter.settings first (Scan.start converter.settings listening)
      = (middle, .exhausted)) (second : List UInt8) (cause : Option String) (outlet : Outlet) :
    (converter.convert ⟨first ++ second, cause⟩ outlet listening).notices
      = (Scan.run converter.settings second middle).1.journal.notices := by
  rw [notices_convert, scan_fst, Scan.run_append exhausted]

/-- What is scanned without a stop byte and without a failure is scanned to its end. -/
theorem run_of_accepted {converter : Converter} {listening : Bool} {bytes : List UInt8}
    (unstopped : ∀ byte ∈ bytes, Event.isStop byte = false)
    (accepted : (converter.scan ⟨bytes, none⟩ listening).2 = none) :
    Scan.run converter.settings bytes (Scan.start converter.settings listening)
        = ((converter.scan ⟨bytes, none⟩ listening).1, .exhausted)
      ∧ (converter.scan ⟨bytes, none⟩ listening).1.offset = bytes.length := by
  have ended := Scan.run_of_unstopped converter.settings unstopped
    (Scan.start converter.settings listening)
  generalize taken : Scan.run converter.settings bytes (Scan.start converter.settings listening)
    = run at ended
  obtain ⟨scan, ending⟩ := run
  rw [scan_of_run taken none] at accepted ⊢
  rcases ended with ⟨failure, rfl⟩ | ⟨rfl, offset⟩
  · cases accepted
  · exact ⟨rfl, offset.trans (Nat.zero_add _)⟩

end Converter

end AnsiCanvas
