import AnsiCanvas.Proofs.Scan.Lockstep
import AnsiCanvas.Proofs.Scan.Notices

/-! # Unhandled commands

Whether unhandled commands are skipped or end a document makes no difference before the first
of them.  There one conversion ends and the other goes on with one more notice.  Foreign final
bytes apart, nothing else in a document can fail a conversion.
-/

namespace AnsiCanvas

/-- The one event on which the policy has a say. -/
theorem Event.ending?_skip_or_unhandled (offset : Nat) (event : Event) :
    event.ending? .skip offset = event.ending? .abort offset
      ∨ ∃ letter, event = command (.unhandled letter) := by
  cases event with
  | command asked =>
    cases asked with
    | unhandled letter => exact .inr ⟨letter, rfl⟩
    | move | place | eraseDisplay | eraseLine | save | restore | rendition | ignored =>
      exact .inl rfl
  | rejected error => cases error <;> exact .inl rfl
  | stop | draw | carriageReturn | lineFeed | silence => exact .inl rfl

variable {width : Nat}

namespace Scan

/-- Steps differ by policy at an unhandled command only. -/
theorem step_skip_or_fails (settings : Settings) (byte : UInt8) (scan : Scan width) :
    scan.step { settings with unhandled := .skip } byte
        = scan.step { settings with unhandled := .abort } byte
      ∨ ∃ next last : Scan width,
          scan.step { settings with unhandled := .skip } byte = (next, none)
          ∧ next.journal = scan.journal.record [.unhandledCommand byte] scan.offset
          ∧ scan.step { settings with unhandled := .abort } byte
            = (last, some (.failed (.unhandledCommand byte scan.offset))) := by
  rcases (scan.event byte).ending?_skip_or_unhandled scan.offset with same | ⟨letter, event⟩
  · left
    cases ends : (scan.event byte).ending? .abort scan.offset with
    | some ending => rw [step_of_ending (same.trans ends), step_of_ending ends]
    | none => rw [step_of_continuing (same.trans ends), step_of_continuing ends]
  · right
    have continues : (scan.event byte).ending? .skip scan.offset = none := by rw [event]; rfl
    have ends : (scan.event byte).ending? .abort scan.offset
        = some (.failed (.unhandledCommand letter scan.offset)) := by rw [event]; rfl
    have blamed := (Event.causedBy_of_ending? ends).blamed?_eq
    obtain ⟨rfl, -⟩ := Prod.mk.inj (Option.some.inj blamed)
    refine ⟨_, _, step_of_continuing continues, ?_, step_of_ending ends⟩
    dsimp only
    rw [event]
    rfl

end Scan

namespace Converter

/-- The converter with the same settings but for what it does about unhandled commands. -/
def withUnhandled (converter : Converter) (unhandled : UnhandledPolicy) : Converter where
  settings := { converter.settings with unhandled }
  width_pos := converter.width_pos

/-- A document without strictness and with unhandled commands skipped can only fail to be read
    or written. -/
theorem convert_of_skip_of_lenient (converter : Converter)
    (skips : converter.settings.unhandled = .skip) (lenient : converter.settings.strict = false)
    (source : Source) (outlet : Outlet) (listening : Bool) :
    (∃ summary, (converter.convert source outlet listening).result = .ok summary)
      ∨ (∃ cause, source.failure = some cause
          ∧ (converter.convert source outlet listening).result
            = .error (.read source.bytes.length cause))
      ∨ ∃ room, outlet.room = some room
          ∧ (converter.convert source outlet listening).result = .error (.write room.refusal) := by
  obtain ⟨bytes, cause⟩ := source
  cases taken : Scan.run converter.settings bytes (Scan.start converter.settings listening) with
  | mk last ending =>
    rw [convert_of_run _ taken]
    have written := Outcome.result_ofScan_none converter.settings.renderOptions outlet last
    cases ending with
    | stopped => exact written.imp (Exists.intro _) .inr
    | exhausted =>
      cases cause with
      | none => exact written.imp (Exists.intro _) .inr
      | some cause =>
        refine .inr (.inl ⟨cause, rfl, ?_⟩)
        rw [← Scan.offset_of_exhausted_start taken]
        rfl
    | failed failure =>
      obtain ⟨before, byte, after, middle, rfl, exhausted, fails⟩ :=
        Scan.exists_step_of_ended taken (by simp)
      cases (Scan.causedBy_of_step fails).1 with
      | unknownTerminator isStrict =>
        rw [strict_of_exhausted exhausted, lenient] at isStrict
        cases isStrict
      | unhandledCommand aborts =>
        rw [skips] at aborts
        cases aborts

/-- The aborting conversion is the skipping one, or it ends where that one goes on. -/
theorem convert_abort_eq_skip_or_cut (converter : Converter) (source : Source) (outlet : Outlet)
    (listening : Bool) :
    let abort := (converter.withUnhandled .abort).convert source outlet listening
    let skip := (converter.withUnhandled .skip).convert source outlet listening
    abort = skip
      ∨ ∃ letter offset following,
          abort.result = .error (.unhandledCommand letter offset)
            ∧ skip.notices = abort.notices
                ++ (if listening then #[⟨.unhandledCommand letter, offset⟩] else #[])
                ++ following := by
  obtain ⟨bytes, cause⟩ := source
  intro abort skip
  rcases Scan.run_in_step_or_part (converter.withUnhandled .abort).settings
      (converter.withUnhandled .skip).settings id bytes
      (Scan.start (converter.withUnhandled .abort).settings listening) with
    inStep | ⟨before, byte, after, middle, rfl, exhausted, skipExhausted, parts⟩
  · left
    cases taken : Scan.run (converter.withUnhandled .abort).settings bytes
        (Scan.start (converter.withUnhandled .abort).settings listening) with
    | mk last ending =>
      rw [taken] at inStep
      exact (convert_of_run _ taken cause outlet).trans
        (convert_of_run (converter.withUnhandled .skip) inStep cause outlet).symm
  · right
    obtain ⟨next, last, skips, noted, fails⟩ :=
      (Scan.step_skip_or_fails converter.settings byte middle).resolve_left parts
    have ended : abort
        = ⟨.error (.unhandledCommand byte middle.offset), middle.journal.notices, outlet⟩ :=
      convert_of_failing_step (converter.withUnhandled .abort) exhausted fails after cause outlet
    -- The skipping run goes on from where the other one ends.
    obtain ⟨following, notices⟩ := exists_notices_of_continuing (converter.withUnhandled .skip)
      skipExhausted skips after cause outlet
    have kept : middle.journal.isKept = listening := isKept_of_exhausted exhausted
    rw [noted, Journal.notices_record, kept] at notices
    rw [ended]
    exact ⟨byte, middle.offset, following, rfl, notices⟩

theorem convert_ne_unhandledCommand_of_skip (converter : Converter)
    (skips : converter.settings.unhandled = .skip) (source : Source) (outlet : Outlet)
    (listening : Bool) (letter : UInt8) (offset : Nat) :
    (converter.convert source outlet listening).result
      ≠ .error (.unhandledCommand letter offset) := by
  intro fails
  obtain ⟨-, -, caused⟩ := causedBy_of_result _ rfl fails
  rw [skips] at caused
  cases caused.aborts

/-- The policy for unhandled commands decides whether they are fatal and nothing else.  Where
    the aborting conversion does not fail for one, both are the same in result, output and
    diagnostics.  Where it does, it has written nothing, the byte at the offset it names is the
    letter of the command, and the skipping conversion has the same diagnostics up to there,
    then that of the command.  The skipping conversion never fails so, and if it is lenient too,
    it succeeds unless reading or writing fails. -/
theorem convert_abort_eq_skip_or_fails (converter : Converter) (source : Source)
    (outlet : Outlet) (listening : Bool) :
    let abort := (converter.withUnhandled .abort).convert source outlet listening
    let skip := (converter.withUnhandled .skip).convert source outlet listening
    ((∀ letter offset, abort.result ≠ .error (.unhandledCommand letter offset)) → abort = skip)
      ∧ (∀ letter offset, abort.result = .error (.unhandledCommand letter offset) →
          abort.outlet = outlet
            ∧ source.bytes[offset]? = some letter
            ∧ ∃ following, skip.notices = abort.notices
                ++ (if listening then #[⟨.unhandledCommand letter, offset⟩] else #[])
                ++ following)
      ∧ (∀ letter offset, skip.result ≠ .error (.unhandledCommand letter offset))
      ∧ (converter.settings.strict = false →
          (∃ summary, skip.result = .ok summary)
            ∨ (∃ cause, source.failure = some cause
                ∧ skip.result = .error (.read source.bytes.length cause))
            ∨ ∃ room, outlet.room = some room ∧ skip.result = .error (.write room.refusal)) := by
  intro abort skip
  have never := convert_ne_unhandledCommand_of_skip (converter.withUnhandled .skip) rfl source
    outlet listening
  have lenient := fun lenient : converter.settings.strict = false =>
    convert_of_skip_of_lenient (converter.withUnhandled .skip) rfl lenient source outlet listening
  rcases converter.convert_abort_eq_skip_or_cut source outlet listening with
    same | ⟨byte, place, following, aborted, notices⟩
  · refine ⟨fun _ => same, fun letter offset fails => ?_, never, lenient⟩
    exact absurd ((congrArg Outcome.result same).symm.trans fails) (never letter offset)
  · refine ⟨fun passes => absurd aborted (passes _ _), fun letter offset fails => ?_, never,
      lenient⟩
    obtain ⟨unwritten, there, -⟩ := causedBy_of_result _ rfl fails
    obtain ⟨rfl, rfl⟩ :=
      Failure.unhandledCommand.inj (Except.error.inj (aborted.symm.trans fails))
    exact ⟨unwritten, there, following, notices⟩

theorem convert_abort_of_reset :
    ((withUnhandled ⟨{ width := 4 }, by decide⟩ .abort).convert
          ⟨"A\x1b[1;2AB".toUTF8.data.toList, none⟩ {} true
        = (withUnhandled ⟨{ width := 4 }, by decide⟩ .skip).convert
            ⟨"A\x1b[1;2AB".toUTF8.data.toList, none⟩ {} true)
      ∧ ((withUnhandled ⟨{ width := 4 }, by decide⟩ .abort).convert
            ⟨"A\x1b[1;2AB\x1bcC\x1b]".toUTF8.data.toList, none⟩ {} true).result
          = .error (.unhandledCommand 0x63 9)
      ∧ (∃ following,
          ((withUnhandled ⟨{ width := 4 }, by decide⟩ .skip).convert
              ⟨"A\x1b[1;2AB\x1bcC\x1b]".toUTF8.data.toList, none⟩ {} true).notices
            = ((withUnhandled ⟨{ width := 4 }, by decide⟩ .abort).convert
                ⟨"A\x1b[1;2AB\x1bcC\x1b]".toUTF8.data.toList, none⟩ {} true).notices
              ++ #[⟨.unhandledCommand 0x63, 9⟩] ++ following)
      ∧ ∃ summary, ((withUnhandled ⟨{ width := 4 }, by decide⟩ .skip).convert
          ⟨"A\x1b[1;2AB\x1bcC\x1b]".toUTF8.data.toList, none⟩ {} true).result = .ok summary := by
  have passes : ((withUnhandled ⟨{ width := 4 }, by decide⟩ .abort).convert
      ⟨"A\x1b[1;2AB".toUTF8.data.toList, none⟩ {} true).result = .ok ⟨8, 1, 1⟩ := by decide +kernel
  have fails : ((withUnhandled ⟨{ width := 4 }, by decide⟩ .abort).convert
      ⟨"A\x1b[1;2AB\x1bcC\x1b]".toUTF8.data.toList, none⟩ {} true).result
      = .error (.unhandledCommand 0x63 9) := by decide +kernel
  have same := (convert_abort_eq_skip_or_fails ⟨{ width := 4 }, by decide⟩
    ⟨"A\x1b[1;2AB".toUTF8.data.toList, none⟩ {} true).1
  obtain ⟨-, cut, -, succeeds⟩ := convert_abort_eq_skip_or_fails ⟨{ width := 4 }, by decide⟩
    ⟨"A\x1b[1;2AB\x1bcC\x1b]".toUTF8.data.toList, none⟩ {} true
  refine ⟨same fun letter offset refused => ?_, fails, (cut _ _ fails).2.2, ?_⟩
  · cases passes.symm.trans refused
  · rcases succeeds rfl with summary | ⟨_, unread, -⟩ | ⟨_, unwritten, -⟩
    · exact summary
    · cases unread
    · cases unwritten

end Converter

end AnsiCanvas
