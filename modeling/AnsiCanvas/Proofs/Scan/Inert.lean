import AnsiCanvas.Proofs.Scan.Conversion

/-! # Escapes without effect

A malformed escape, an ignored one and an unhandled one that is skipped leave no trace but
their diagnostics.  What follows is converted as if they were not there, only further on in
the document.  An escape that the end of the document cuts off leaves no trace at all.
-/

namespace AnsiCanvas

/-- The answers to escapes without effect, with the diagnostics of each. -/
inductive Inert (policy : UnhandledPolicy) : Except EscapeError Command → List Diagnostic → Prop
  | malformed (sequence : String) (reason : Malformation) :
      Inert policy (.error (.malformed sequence reason))
        [.malformedEscape (.malformed sequence reason)]
  | ignored (letter : UInt8) : Inert policy (.ok (.ignored letter)) []
  | unhandled (letter : UInt8) (skips : policy = .skip) :
      Inert policy (.ok (.unhandled letter)) [.unhandledCommand letter]

variable {width : Nat}

namespace Inert

variable {policy : UnhandledPolicy} {answer : Except EscapeError Command} {own : List Diagnostic}

theorem ending?_eq_none (inert : Inert policy answer own) (offset : Nat) :
    (Event.ofAnswer answer).ending? policy offset = none := by
  cases inert with
  | malformed | ignored => rfl
  | unhandled letter skips => rw [skips]; rfl

theorem perform_eq (inert : Inert policy answer own) (limit : Nat) (canvas : Canvas width) :
    canvas.perform limit (Event.ofAnswer answer) = (canvas, own) := by
  cases inert <;> rfl

end Inert

/-- An escape without effect leaves its diagnostics, at its last byte, and nothing else. -/
theorem Scan.run_of_inert {settings : Settings} {bytes : List UInt8}
    {answer : Except EscapeError Command} {own : List Diagnostic}
    (inert : Inert settings.unhandled answer own) {scan : Scan width}
    (escape : WholeEscape scan.collector.strict bytes answer)
    (unstopped : ∀ byte ∈ bytes, Event.isStop byte = false)
    (closed : scan.collector.isOpen = false) :
    run settings bytes scan
      = ({ scan with
            journal := scan.journal.record own (scan.offset + (bytes.length - 1)),
            offset := scan.offset + bytes.length }, .exhausted) := by
  rw [run_of_wholeEscape escape unstopped closed (inert.ending?_eq_none _), inert.perform_eq]

/-! ## Conversions -/

theorem Ending.failure?_later (cause : Option String) (distance offset : Nat) (ending : Ending) :
    (ending.later distance).failure? cause (distance + offset)
      = (ending.failure? cause offset).map (Failure.later distance) := by
  cases ending <;> cases cause <;> rfl

/-- The summary of a document with more bytes and more diagnostics but the same picture. -/
def Summary.later (bytes diagnostics : Nat) (summary : Summary) : Summary where
  bytesRead := bytes + summary.bytesRead
  rows := summary.rows
  diagnostics := diagnostics + summary.diagnostics

namespace Converter

/-- Scans that differ in what came before lead to conversions that differ no more. -/
theorem convert_later (converter : Converter) (source other : Source) (listening : Bool)
    (bytes diagnostics : Nat)
    (canvas : (converter.scan other listening).1.canvas
      = (converter.scan source listening).1.canvas)
    (offset : (converter.scan other listening).1.offset
      = bytes + (converter.scan source listening).1.offset)
    (count : (converter.scan other listening).1.journal.count
      = diagnostics + (converter.scan source listening).1.journal.count)
    (failure : (converter.scan other listening).2
      = (converter.scan source listening).2.map (Failure.later bytes))
    (outlet : Outlet) :
    (converter.convert other outlet listening).outlet
        = (converter.convert source outlet listening).outlet
      ∧ (converter.convert other outlet listening).result
        = ((converter.convert source outlet listening).result.mapError (Failure.later bytes)).map
            (Summary.later bytes diagnostics) := by
  rw [convert, convert]
  generalize converter.scan other listening = second at *
  generalize converter.scan source listening = first at *
  obtain ⟨scan, firstFailure⟩ := first
  obtain ⟨last, secondFailure⟩ := second
  dsimp only at canvas offset count failure ⊢
  cases firstFailure with
  | none =>
    obtain rfl : secondFailure = none := failure
    simp only [canvas, offset, count]
    split <;> exact ⟨rfl, rfl⟩
  | some cause =>
    obtain rfl : secondFailure = some (cause.later bytes) := failure
    exact ⟨rfl, rfl⟩

section

variable {converter : Converter} {listening : Bool} {beginning : List UInt8}
  {middle : Scan converter.settings.width}

/-- A document is scanned in two parts, the second as if it stood alone. -/
theorem scan_append
    (exhausted : Scan.run converter.settings beginning (Scan.start converter.settings listening)
      = (middle, .exhausted)) (rest : List UInt8) (cause : Option String) :
    let alone := Scan.run converter.settings rest
      (Scan.fresh middle.collector middle.canvas listening)
    converter.scan ⟨beginning ++ rest, cause⟩ listening
      = (alone.1.after middle.journal middle.offset,
          (alone.2.failure? cause alone.1.offset).map (Failure.later middle.offset)) := by
  intro alone
  have ended := Scan.run_append exhausted rest
  rw [Scan.run_eq_after_fresh _ _ middle, isKept_of_exhausted exhausted] at ended
  rw [scan_of_run ended cause, ← Ending.failure?_later]
  rfl

/-- The scan with an escape without effect, beside the one without it. -/
theorem scan_append_inert
    (exhausted : Scan.run converter.settings beginning (Scan.start converter.settings listening)
      = (middle, .exhausted)) (closed : middle.collector.isOpen = false) {escape : List UInt8}
    {answer : Except EscapeError Command} {own : List Diagnostic}
    (whole : WholeEscape converter.settings.strict escape answer)
    (unstopped : ∀ byte ∈ escape, Event.isStop byte = false)
    (inert : Inert converter.settings.unhandled answer own) (rest : List UInt8)
    (cause : Option String) :
    ∃ (last : Scan converter.settings.width) (failure : Option Failure),
      last.journal.isKept = listening
      ∧ converter.scan ⟨beginning ++ rest, cause⟩ listening
          = (last.after middle.journal middle.offset,
              failure.map (Failure.later middle.offset))
      ∧ converter.scan ⟨beginning ++ escape ++ rest, cause⟩ listening
          = (last.after (middle.journal.record own (middle.offset + (escape.length - 1)))
                (middle.offset + escape.length),
              failure.map (Failure.later (middle.offset + escape.length))) := by
  rw [← strict_of_exhausted exhausted] at whole
  have passed := (Scan.run_append exhausted escape).trans
    (Scan.run_of_inert inert whole unstopped closed)
  refine ⟨_, _, ?_, scan_append exhausted rest cause, scan_append passed rest cause⟩
  rw [Scan.isKept_run]
  exact Journal.isKept_blank listening

/-- An escape that is still open at the end moves the offset at most. -/
theorem scan_append_unfinished
    (exhausted : Scan.run converter.settings beginning (Scan.start converter.settings listening)
      = (middle, .exhausted)) (closed : middle.collector.isOpen = false) {inside : List UInt8}
    (silent : (Collector.read { strict := converter.settings.strict } inside).2 = none) :
    ∃ collector offset, converter.scan ⟨beginning ++ 0x1B :: inside, none⟩ listening
      = ({ middle with collector, offset }, none) := by
  rw [← strict_of_exhausted exhausted] at silent
  have appended := Scan.run_append exhausted (0x1B :: inside)
  rcases Scan.run_of_unfinished converter.settings closed silent with
    exhausted | ⟨_, _, stopped⟩
  · exact ⟨_, _, scan_of_run (appended.trans exhausted) none⟩
  · exact ⟨_, _, scan_of_run (appended.trans stopped) none⟩

end

/-- Escapes without effect leave no trace.  Let a document begin with bytes that contain no
    stop byte, do not fail and leave no sequence open.  Whether an escape without effect
    follows them or not, the rest is converted in the same way, with the same output and the
    same rows.  The diagnostics are those of the beginning, those of the escape itself, and
    those of the rest, which are found later by the length of the escape, as is a failure.
    And an escape that is still open at the end of the document changes neither the output
    nor the rows nor the diagnostics. -/
theorem convert_of_inert (converter : Converter) (listening : Bool) (outlet : Outlet)
    {beginning : List UInt8} (unstopped : ∀ byte ∈ beginning, Event.isStop byte = false)
    (accepted : (converter.scan ⟨beginning, none⟩ listening).2 = none)
    (closed : (converter.scan ⟨beginning, none⟩ listening).1.collector.isOpen = false) :
    let start := converter.convert ⟨beginning, none⟩ outlet listening
    (∀ (escape : List UInt8) (answer : Except EscapeError Command) (own : List Diagnostic),
        WholeEscape converter.settings.strict escape answer →
        (∀ byte ∈ escape, Event.isStop byte = false) →
        Inert converter.settings.unhandled answer own →
        ∀ (rest : List UInt8) (cause : Option String),
          let short := converter.convert ⟨beginning ++ rest, cause⟩ outlet listening
          let whole := converter.convert ⟨beginning ++ escape ++ rest, cause⟩ outlet listening
          whole.outlet = short.outlet
            ∧ whole.result = (short.result.mapError (Failure.later escape.length)).map
                (Summary.later escape.length own.length)
            ∧ ∃ following : Array Notice,
                (∀ notice ∈ following, beginning.length ≤ notice.offset)
                ∧ short.notices = start.notices ++ following
                ∧ whole.notices = start.notices
                    ++ (if listening then
                          (own.map (Notice.mk · (beginning.length + (escape.length - 1)))).toArray
                        else #[])
                    ++ following.map (Notice.later escape.length))
      ∧ ∀ inside : List UInt8,
          (Collector.read { strict := converter.settings.strict } inside).2 = none →
          let cut := converter.convert ⟨beginning ++ 0x1B :: inside, none⟩ outlet listening
          cut.outlet = start.outlet ∧ cut.notices = start.notices
            ∧ cut.result.map (fun summary => (summary.rows, summary.diagnostics))
              = start.result.map fun summary => (summary.rows, summary.diagnostics) := by
  obtain ⟨exhausted, offset⟩ := run_of_accepted unstopped accepted
  simp only [notices_convert]
  generalize (converter.scan ⟨beginning, none⟩ listening).1 = middle at *
  have kept := isKept_of_exhausted exhausted
  constructor
  · intro escape answer own whole unstopped inert rest cause
    obtain ⟨last, failure, lastKept, short, long⟩ :=
      scan_append_inert exhausted closed whole unstopped inert rest cause
    have bothKept := lastKept.trans kept.symm
    have later := convert_later converter ⟨beginning ++ rest, cause⟩
      ⟨beginning ++ escape ++ rest, cause⟩ listening escape.length own.length
      (by rw [short, long]; rfl)
      (by rw [short, long]; simp only [Scan.after]; omega)
      (by rw [short, long]; simp only [Scan.after, Journal.after, Journal.count_record]; omega)
      (by rw [short, long, Option.map_map, Failure.later_comp_later])
      outlet
    refine ⟨later.1, later.2, last.journal.notices.map (Notice.later middle.offset), ?_, ?_, ?_⟩
    · intro notice member
      obtain ⟨found, -, rfl⟩ := Array.mem_map.mp member
      rw [← offset]
      exact Nat.le_add_right _ _
    · rw [short]
      exact Journal.notices_after bothKept _
    · rw [long, Array.map_map, Notice.later_comp_later, ← kept, ← offset,
        ← Journal.notices_record]
      exact Journal.notices_after (by simpa using bothKept) _
  · intro inside silent
    obtain ⟨collector, offset, cut⟩ := scan_append_unfinished exhausted closed silent
    have whole : converter.scan ⟨beginning, none⟩ listening = (middle, none) :=
      scan_of_run exhausted none
    refine ⟨?_, congrArg (·.1.journal.notices) cut, ?_⟩
    · rw [convert, convert, cut, whole]
      simp only
      split <;> rfl
    · rw [convert, convert, cut, whole]
      simp only
      split <;> rfl

theorem convert_of_malformed_motion :
    WholeEscape false [0x1B, 0x5B, 0x31, 0x3B, 0x32, 0x41]
        (.error (.malformed "[1;2A" .tooManyParameters))
      ∧ (convert ⟨{ width := 4 }, by decide⟩
            ⟨[0x41] ++ [0x1B, 0x5B, 0x31, 0x3B, 0x32, 0x41] ++ [0x42], none⟩ {} true).outlet
          = (convert ⟨{ width := 4 }, by decide⟩ ⟨[0x41] ++ [0x42], none⟩ {} true).outlet := by
  have whole : WholeEscape false [0x1B, 0x5B, 0x31, 0x3B, 0x32, 0x41]
      (.error (.malformed "[1;2A" .tooManyParameters)) :=
    ⟨[0x5B, 0x31, 0x3B, 0x32], 0x41, rfl, rfl, rfl⟩
  have unstopped : ∀ byte ∈ [0x41], Event.isStop byte = false := by simp [Event.isStop]
  have unmarked := (convert_of_inert ⟨{ width := 4 }, by decide⟩ true {} unstopped rfl rfl).1
    _ _ _ whole (by simp [Event.isStop]) (.malformed _ _) [0x42] none
  exact ⟨whole, unmarked.1⟩

end Converter

end AnsiCanvas
