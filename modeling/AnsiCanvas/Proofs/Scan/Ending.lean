import AnsiCanvas.Proofs.Escape.Segment
import AnsiCanvas.Proofs.Scan.Conversion

/-! # How a run ends

A run takes all its bytes or ends with the step of one of them.  A run that fails does so
for the byte that its failure names, at the offset that it names, and what it has found by
then is left as it is.  So the bytes up to that one are all that matters.
-/

namespace AnsiCanvas

/-- The failures that a byte can cause, in view of what is to happen with foreign final bytes
    and with unhandled commands. -/
inductive Failure.CausedBy (strict : Bool) (policy : UnhandledPolicy) (byte : UInt8)
    (offset : Nat) : Failure → Prop
  | unknownTerminator (isStrict : strict = true)
      (foreign : Collector.isTerminator byte = false) :
      CausedBy strict policy byte offset (.unknownTerminator byte offset)
  | unhandledCommand (aborts : policy = .abort) :
      CausedBy strict policy byte offset (.unhandledCommand byte offset)

theorem Failure.CausedBy.isStrict {strict : Bool} {policy : UnhandledPolicy}
    {byte named : UInt8} {offset place : Nat}
    (caused : CausedBy strict policy byte offset (.unknownTerminator named place)) :
    strict = true ∧ Collector.isTerminator byte = false := by
  cases caused with
  | unknownTerminator isStrict foreign => exact ⟨isStrict, foreign⟩

theorem Failure.CausedBy.aborts {strict : Bool} {policy : UnhandledPolicy}
    {byte named : UInt8} {offset place : Nat}
    (caused : CausedBy strict policy byte offset (.unhandledCommand named place)) :
    policy = .abort := by
  cases caused with
  | unhandledCommand aborts => exact aborts

/-- The byte that a failure blames, with its offset. -/
def Failure.blamed? : Failure → Option (UInt8 × Nat)
  | unknownTerminator byte offset | unhandledCommand byte offset => some (byte, offset)
  | read _ _ | write _ | invalidWidth _ => none

theorem Failure.CausedBy.blamed?_eq {strict : Bool} {policy : UnhandledPolicy} {byte : UInt8}
    {offset : Nat} {failure : Failure} (caused : failure.CausedBy strict policy byte offset) :
    failure.blamed? = some (byte, offset) := by
  cases caused <;> rfl

/-! ## Answers -/

theorem Command.ofParameters_ne_unhandled (parameters : List Parameter) (kind : Control)
    (letter : UInt8) : ofParameters parameters kind ≠ .ok (.unhandled letter) := by
  cases kind <;> grind [ofParameters]

/-- A command that is not handled is known by the letter that ends its sequence. -/
theorem Command.letter_of_unhandled {letter other : UInt8} {bytes : List UInt8}
    (read : ofSequence letter bytes = .ok (.unhandled other)) : other = letter := by
  rw [ofSequence] at read
  cases found : Family.ofLetter? letter with
  | none => simp [found] at read
  | some family =>
    simp only [found] at read
    split at read
    · next accepted =>
      obtain rfl := Except.ok.inj read
      cases family with
      | ignored => cases accepted
      | bare =>
        rw [ofFamily] at accepted
        split at accepted
        · exact (Command.unhandled.inj (Except.ok.inj accepted)).symm
        · cases accepted
      | control kind =>
        rw [ofFamily] at accepted
        split at accepted
        · exact absurd accepted (ofParameters_ne_unhandled _ _ _)
        · cases accepted
    · cases read

theorem Collector.exists_ofSequence_of_feed {collector : Collector} {byte : UInt8}
    {answer : Except EscapeError Command} (answered : (collector.feed byte).2 = some answer) :
    (∃ bytes, answer = Command.ofSequence byte bytes)
      ∧ (isTerminator byte = false → collector.strict = true) := by
  obtain ⟨strict, _ | bytes⟩ := collector
  · cases answered
  · simp only [feed] at answered
    split at answered
    · cases answered
    · split at answered
      · cases answered
      · split at answered
        · next terminator =>
          exact ⟨⟨_, (Option.some.inj answered).symm⟩,
            fun foreign => absurd terminator (by simp [foreign])⟩
        · next foreign =>
          split at answered
          · next final =>
            -- What a strict collector says of a foreign byte is what its letter would mean.
            refine ⟨⟨bytes.toList, ?_⟩, fun _ => (Bool.and_eq_true_iff.mp final).1⟩
            rw [Command.ofSequence_of_not_isTerminator (by simpa using foreign)]
            exact (Option.some.inj answered).symm
          · cases answered

namespace Event

theorem ofAnswer_injective {first second : Except EscapeError Command}
    (same : ofAnswer first = ofAnswer second) : first = second := by
  cases first <;> cases second <;> simp_all [ofAnswer]

/-- A byte asks for the answer to a sequence only if it ends an open one. -/
theorem exists_ofSequence {collector : Collector} {byte : UInt8}
    {answer : Except EscapeError Command}
    (asks : (ofByte collector byte).2 = ofAnswer answer) :
    (∃ bytes, answer = Command.ofSequence byte bytes)
      ∧ (Collector.isTerminator byte = false → collector.strict = true) := by
  cases stops : isStop byte with
  | true =>
    rw [ofByte_of_stop stops] at asks
    cases answer <;> cases asks
  | false =>
    cases opened : collector.isOpen with
    | false =>
      -- Outside of sequences there is nothing to answer.
      simp only [ofByte, stops, opened, Bool.false_eq_true, ↓reduceIte] at asks
      repeat' split at asks
      all_goals cases answer <;> cases asks
    | true =>
      rw [ofByte_of_open opened stops] at asks
      cases fed : (collector.feed byte).2 with
      | none =>
        rw [fed] at asks
        cases answer <;> cases asks
      | some found =>
        rw [fed] at asks
        obtain rfl := ofAnswer_injective asks
        exact Collector.exists_ofSequence_of_feed fed

/-- Whatever a byte fails for, it is named by the failure. -/
theorem causedBy_of_ending? {policy : UnhandledPolicy} {offset : Nat} {collector : Collector}
    {byte : UInt8} {failure : Failure}
    (ends : (ofByte collector byte).2.ending? policy offset = some (.failed failure)) :
    failure.CausedBy collector.strict policy byte offset := by
  cases event : (ofByte collector byte).2 with
  | stop | draw | carriageReturn | lineFeed | silence =>
    rw [event] at ends
    cases ends
  | command asked =>
    have answered : (ofByte collector byte).2 = ofAnswer (.ok asked) := event
    obtain ⟨⟨bytes, read⟩, -⟩ := exists_ofSequence answered
    rw [event] at ends
    cases asked with
    | unhandled letter =>
      obtain rfl := Command.letter_of_unhandled read.symm
      cases policy with
      | abort =>
        obtain rfl := Ending.failed.inj (Option.some.inj ends)
        exact .unhandledCommand rfl
      | skip => cases ends
    | move | place | eraseDisplay | eraseLine | save | restore | rendition | ignored => cases ends
  | rejected error =>
    have answered : (ofByte collector byte).2 = ofAnswer (.error error) := event
    obtain ⟨⟨bytes, read⟩, strict⟩ := exists_ofSequence answered
    rw [event] at ends
    cases error with
    | malformed => cases ends
    | unknownTerminator named sequence =>
      have foreign : Collector.isTerminator byte = false :=
        (Command.ofSequence_eq_unknownTerminator_iff byte bytes).mp ⟨_, _, read.symm⟩
      rw [Command.ofSequence_of_not_isTerminator foreign] at read
      obtain ⟨rfl, -⟩ := EscapeError.unknownTerminator.inj (Except.error.inj read)
      obtain rfl := Ending.failed.inj (Option.some.inj ends)
      exact .unknownTerminator (strict foreign) foreign

end Event

/-! ## Runs -/

namespace Scan

variable {width : Nat} {settings : Settings}

theorem step_of_ending {byte : UInt8} {scan : Scan width} {ending : Ending}
    (ends : (scan.event byte).ending? settings.unhandled scan.offset = some ending) :
    scan.step settings byte
      = ({ scan with
            collector := (Event.ofByte scan.collector byte).1,
            offset := scan.offset + 1 }, some ending) := by
  obtain ⟨collector, canvas, journal, offset⟩ := scan
  rw [event] at ends
  simp only [step, ends]

theorem step_of_continuing {byte : UInt8} {scan : Scan width}
    (continues : (scan.event byte).ending? settings.unhandled scan.offset = none) :
    scan.step settings byte
      = (⟨(Event.ofByte scan.collector byte).1,
          (scan.canvas.perform settings.rowLimit (scan.event byte)).1,
          scan.journal.record (scan.canvas.perform settings.rowLimit (scan.event byte)).2
            scan.offset,
          scan.offset + 1⟩, none) := by
  obtain ⟨collector, canvas, journal, offset⟩ := scan
  rw [event] at continues
  simp only [step, event, continues]

/-- A byte that is no part of a sequence carries out what it asks for. -/
theorem step_of_asked {byte : UInt8} {scan : Scan width} {event : Event}
    (asked : Event.ofByte scan.collector byte = (scan.collector, event))
    (continues : event.ending? settings.unhandled scan.offset = none) :
    scan.step settings byte
      = ({ scan with
            canvas := (scan.canvas.perform settings.rowLimit event).1,
            journal := scan.journal.record (scan.canvas.perform settings.rowLimit event).2
              scan.offset,
            offset := scan.offset + 1 }, none) := by
  have same : scan.event byte = event := congrArg Prod.snd asked
  rw [step_of_continuing (by rw [same, continues]), same, asked]

theorem run_cons_of_none {byte : UInt8} {scan next : Scan width}
    (continues : scan.step settings byte = (next, none)) (rest : List UInt8) :
    run settings (byte :: rest) scan = run settings rest next := by
  rw [run, continues]

theorem run_singleton (byte : UInt8) (scan : Scan width) :
    run settings [byte] scan
      = ((scan.step settings byte).1, (scan.step settings byte).2.getD .exhausted) := by
  rw [run]
  rcases scan.step settings byte with ⟨next, _ | ending⟩ <;> rfl

theorem offset_of_exhausted {bytes : List UInt8} {scan last : Scan width}
    (exhausted : run settings bytes scan = (last, .exhausted)) :
    last.offset = scan.offset + bytes.length := by
  induction bytes generalizing scan with
  | nil => exact (congrArg (·.1.offset) exhausted).symm
  | cons byte rest ih =>
    obtain ⟨ended, -, offset⟩ := step_frame settings byte scan
    rw [run] at exhausted
    generalize scan.step settings byte = stepped at ended offset exhausted
    rcases stepped with ⟨next, _ | ending⟩
    · rw [ih exhausted, offset, List.length_cons, Nat.add_assoc, Nat.add_comm 1]
    · obtain rfl : ending = .exhausted := congrArg Prod.snd exhausted
      rcases Event.stop_or_failed_of_ending? ended.symm with ⟨-, equal⟩ | ⟨_, equal⟩ <;> cases equal

theorem offset_of_exhausted_start {bytes : List UInt8} {listening : Bool}
    {last : Scan settings.width}
    (exhausted : run settings bytes (start settings listening) = (last, .exhausted)) :
    last.offset = bytes.length :=
  (offset_of_exhausted exhausted).trans (Nat.zero_add _)

/-- A run that does not take all bytes ends with the step of one. -/
theorem exists_step_of_ended {bytes : List UInt8} {scan last : Scan width} {ending : Ending}
    (ended : run settings bytes scan = (last, ending)) (early : ending ≠ .exhausted) :
    ∃ before byte after middle, bytes = before ++ byte :: after
      ∧ run settings before scan = (middle, .exhausted)
      ∧ middle.step settings byte = (last, some ending) := by
  induction bytes generalizing scan with
  | nil => exact absurd (congrArg Prod.snd ended).symm early
  | cons byte rest ih =>
    rw [run] at ended
    cases stepped : scan.step settings byte with
    | mk next answer =>
      rw [stepped] at ended
      cases answer with
      | some early =>
        obtain ⟨rfl, rfl⟩ := Prod.mk.inj ended
        exact ⟨[], byte, rest, scan, rfl, rfl, stepped⟩
      | none =>
        obtain ⟨before, other, after, middle, rfl, exhausted, last⟩ := ih ended
        refine ⟨byte :: before, other, after, middle, rfl, ?_, last⟩
        rw [run, stepped]
        exact exhausted

/-- A run goes as far as a byte whose step ends it, whatever comes after. -/
theorem run_of_step {before : List UInt8} {byte : UInt8} {scan middle last : Scan width}
    {ending : Ending} (exhausted : run settings before scan = (middle, .exhausted))
    (ends : middle.step settings byte = (last, some ending)) (after : List UInt8) :
    run settings (before ++ byte :: after) scan = (last, ending) := by
  rw [run_append exhausted, run, ends]

/-- A step that fails names its byte and leaves what was found. -/
theorem causedBy_of_step {byte : UInt8} {scan last : Scan width} {failure : Failure}
    (fails : scan.step settings byte = (last, some (.failed failure))) :
    failure.CausedBy scan.collector.strict settings.unhandled byte scan.offset
      ∧ last.journal = scan.journal := by
  have ends := (step_frame settings byte scan).1
  rw [fails] at ends
  rw [step_of_ending ends.symm] at fails
  exact ⟨Event.causedBy_of_ending? ends.symm, (congrArg (·.1.journal) fails).symm⟩

end Scan

/-! ## Conversions -/

/-- Neither reading nor writing fails for a byte, so such a failure is that of the scan. -/
theorem Outcome.eq_some_of_blamed? {width : Nat} {options : RenderOptions} {outlet : Outlet}
    {scan : Scan width} {scanned : Option Failure} {failure : Failure}
    (blames : failure.blamed? ≠ none)
    (fails : (ofScan options outlet scan scanned).result = .error failure) :
    scanned = some failure := by
  cases scanned with
  | some other => exact congrArg some (Except.error.inj fails)
  | none =>
    rcases result_ofScan_none options outlet scan with written | ⟨room, -, refused⟩
    · cases written.symm.trans fails
    · obtain rfl := Except.error.inj (refused.symm.trans fails)
      exact absurd rfl blames

theorem Ending.eq_failed_of_blamed? {cause : Option String} {offset : Nat} {ending : Ending}
    {failure : Failure} (blames : failure.blamed? ≠ none)
    (fails : ending.failure? cause offset = some failure) : ending = .failed failure := by
  cases ending with
  | failed other => exact congrArg failed (Option.some.inj fails)
  | stopped => cases fails
  | exhausted =>
    cases cause with
    | none => cases fails
    | some cause =>
      obtain rfl := Option.some.inj fails
      exact absurd rfl blames

namespace Converter

variable (converter : Converter) {listening : Bool}

/-- A byte that fails a conversion leaves the outlet alone and the notices as they were. -/
theorem convert_of_failing_step {before : List UInt8} {byte : UInt8}
    {middle last : Scan converter.settings.width} {failure : Failure}
    (exhausted : Scan.run converter.settings before (Scan.start converter.settings listening)
      = (middle, .exhausted))
    (fails : middle.step converter.settings byte = (last, some (.failed failure)))
    (after : List UInt8) (cause : Option String) (outlet : Outlet) :
    converter.convert ⟨before ++ byte :: after, cause⟩ outlet listening
      = ⟨.error failure, middle.journal.notices, outlet⟩ := by
  rw [convert_of_run _ (Scan.run_of_step exhausted fails after), Ending.failure?, Outcome.ofScan,
    (Scan.causedBy_of_step fails).2]

/-- A failure that blames a byte is that of the step of this byte. -/
theorem exists_failing_step {bytes : List UInt8} {cause : Option String} {outlet : Outlet}
    {failure : Failure} {byte : UInt8} {offset : Nat}
    (blames : failure.blamed? = some (byte, offset))
    (fails : (converter.convert ⟨bytes, cause⟩ outlet listening).result = .error failure) :
    ∃ (before after : List UInt8) (middle last : Scan converter.settings.width),
      bytes = before ++ byte :: after
        ∧ before.length = offset
        ∧ Scan.run converter.settings before (Scan.start converter.settings listening)
          = (middle, .exhausted)
        ∧ middle.step converter.settings byte = (last, some (.failed failure))
        ∧ failure.CausedBy converter.settings.strict converter.settings.unhandled byte offset := by
  cases taken : Scan.run converter.settings bytes (Scan.start converter.settings listening) with
  | mk last ending =>
    rw [convert_of_run _ taken] at fails
    have atByte : failure.blamed? ≠ none := by simp [blames]
    obtain rfl := Ending.eq_failed_of_blamed? atByte (Outcome.eq_some_of_blamed? atByte fails)
    obtain ⟨before, other, after, middle, rfl, exhausted, step⟩ :=
      Scan.exists_step_of_ended taken (by simp)
    have caused := (Scan.causedBy_of_step step).1
    rw [strict_of_exhausted exhausted, Scan.offset_of_exhausted_start exhausted] at caused
    obtain ⟨rfl, rfl⟩ := Prod.mk.inj (Option.some.inj (caused.blamed?_eq.symm.trans blames))
    exact ⟨before, after, middle, last, rfl, rfl, exhausted, step, caused⟩

/-- A failure that blames a byte blames the one at its offset, and nothing has been written. -/
theorem causedBy_of_result {source : Source} {outlet : Outlet} {failure : Failure} {byte : UInt8}
    {offset : Nat} (blames : failure.blamed? = some (byte, offset))
    (fails : (converter.convert source outlet listening).result = .error failure) :
    (converter.convert source outlet listening).outlet = outlet
      ∧ source.bytes[offset]? = some byte
      ∧ failure.CausedBy converter.settings.strict converter.settings.unhandled byte offset := by
  obtain ⟨bytes, cause⟩ := source
  obtain ⟨before, after, middle, last, rfl, rfl, exhausted, failing, caused⟩ :=
    converter.exists_failing_step blames fails
  refine ⟨?_, ?_, caused⟩
  · rw [convert_of_failing_step _ exhausted failing]
  · rw [List.getElem?_append_right (Nat.le_refl _), Nat.sub_self]
    rfl

end Converter

end AnsiCanvas
