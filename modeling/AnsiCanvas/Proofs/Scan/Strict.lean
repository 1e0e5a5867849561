import AnsiCanvas.Proofs.Scan.Lockstep
import AnsiCanvas.Proofs.Scan.Notices

/-! # Strict scans

A strict collector answers every sequence that it lets pass as a lenient one does.  All it
does otherwise is refuse a byte that a lenient one would collect, and that ends the document.
So a strict scan is the lenient one, up to the first byte that is refused.
-/

namespace AnsiCanvas

namespace Collector

/-- The collector that does not let foreign final bytes pass. -/
def strictly (collector : Collector) : Collector := { collector with strict := true }

theorem feed_strictly (collector : Collector) (byte : UInt8) :
    collector.strictly.feed byte = (collector.feed byte).map strictly id
      ∨ ∃ sequence, (collector.strictly.feed byte).2
          = some (.error (.unknownTerminator byte sequence)) := by
  obtain ⟨strict, _ | bytes⟩ := collector
  · exact .inl rfl
  · simp only [strictly, feed, Bool.true_and]
    split
    · exact .inl rfl
    · split
      · exact .inl rfl
      · split
        · exact .inl rfl
        · -- Only here does a collector look at whether it is strict.
          split
          · exact .inr ⟨_, rfl⟩
          · next passes =>
            rw [if_neg (by simp [passes])]
            exact .inl rfl

end Collector

theorem Event.ofByte_strictly (collector : Collector) (byte : UInt8) :
    ofByte collector.strictly byte = (ofByte collector byte).map Collector.strictly id
      ∨ ∃ sequence, (ofByte collector.strictly byte).2
          = rejected (.unknownTerminator byte sequence) := by
  cases stops : isStop byte with
  | true =>
    rw [ofByte_of_stop stops, ofByte_of_stop stops]
    exact .inl rfl
  | false =>
    cases opened : collector.isOpen with
    | false =>
      have alsoClosed : collector.strictly.isOpen = false := opened
      simp only [ofByte, stops, opened, alsoClosed, Bool.false_eq_true, ↓reduceIte]
      left
      repeat' split
      all_goals rfl
    | true =>
      have alsoOpen : collector.strictly.isOpen = true := opened
      rw [ofByte_of_open opened stops, ofByte_of_open alsoOpen stops]
      rcases collector.feed_strictly byte with same | ⟨sequence, refused⟩
      · rw [same]
        exact .inl rfl
      · rw [refused]
        exact .inr ⟨sequence, rfl⟩

variable {width : Nat}

namespace Scan

/-- The state of a scan whose collector has become strict. -/
def strictly (scan : Scan width) : Scan width :=
  { scan with collector := scan.collector.strictly }

theorem step_strictly (settings : Settings) (byte : UInt8) (scan : Scan width) :
    scan.strictly.step { settings with strict := true } byte
        = (scan.step { settings with strict := false } byte).map strictly id
      ∨ (scan.strictly.step { settings with strict := true } byte).2
        = some (.failed (.unknownTerminator byte scan.offset)) := by
  obtain ⟨collector, canvas, journal, offset⟩ := scan
  rcases Event.ofByte_strictly collector byte with same | ⟨sequence, refused⟩
  · left
    simp only [step, strictly, same, Prod.map_fst, Prod.map_snd, id]
    split <;> rfl
  · right
    rw [(step_frame _ _ _).1, strictly, refused]
    rfl

end Scan

namespace Converter

/-- The converter with the same settings but for whether it is strict. -/
def withStrict (converter : Converter) (strict : Bool) : Converter where
  settings := { converter.settings with strict }
  width_pos := converter.width_pos

/-- The strict conversion is the lenient one, or it is cut off at a byte that ends no sequence. -/
theorem convert_strict_eq_or_cut (converter : Converter) (source : Source) (outlet : Outlet)
    (listening : Bool) :
    let strict := (converter.withStrict true).convert source outlet listening
    let lenient := (converter.withStrict false).convert source outlet listening
    strict = lenient
      ∨ ∃ byte offset,
          strict = ⟨.error (.unknownTerminator byte offset),
            lenient.notices.filter (·.offset < offset), outlet⟩ := by
  obtain ⟨bytes, cause⟩ := source
  rcases Scan.run_in_step_or_part (converter.withStrict false).settings
      (converter.withStrict true).settings Scan.strictly bytes
      (Scan.start (converter.withStrict false).settings listening) with
    inStep | ⟨before, byte, after, middle, rfl, exhausted, strictExhausted, parts⟩
  · left
    cases taken : Scan.run (converter.withStrict false).settings bytes
        (Scan.start (converter.withStrict false).settings listening) with
    | mk last ending =>
      rw [taken] at inStep
      exact (convert_of_run (converter.withStrict true) inStep cause outlet).trans
        (convert_of_run _ taken cause outlet).symm
  · right
    have fails := (Scan.step_strictly converter.settings byte middle).resolve_left parts
    cases refused : middle.strictly.step (converter.withStrict true).settings byte with
    | mk last ending =>
      obtain rfl : ending = some (.failed (.unknownTerminator byte middle.offset)) :=
        (congrArg Prod.snd refused).symm.trans fails
      have cut := convert_of_failing_step (converter.withStrict true) strictExhausted refused after
        cause outlet
      -- Becoming strict has not touched what was found before.
      have found := filter_notices_convert _ exhausted (byte :: after) cause outlet
      refine ⟨byte, middle.offset, cut.trans ?_⟩
      rw [Scan.offset_of_exhausted_start exhausted, found]
      rfl

theorem convert_ne_unknownTerminator_of_lenient (converter : Converter)
    (lenient : converter.settings.strict = false) (source : Source) (outlet : Outlet)
    (listening : Bool) (byte : UInt8) (offset : Nat) :
    (converter.convert source outlet listening).result
      ≠ .error (.unknownTerminator byte offset) := by
  intro fails
  obtain ⟨-, -, caused⟩ := causedBy_of_result _ rfl fails
  rw [lenient] at caused
  exact absurd caused.isStrict.1 Bool.false_ne_true

/-- Being strict only adds failures.  A strict conversion that does not fail for an unknown
    terminator is the lenient one in result, output and diagnostics.  If it does fail so, then
    the byte it names is at the offset it names and ends no sequence of a lenient scan, nothing
    has been written, and the diagnostics are those of the lenient conversion that come before.
    A lenient conversion never fails so. -/
theorem convert_strict_eq_lenient_or_fails (converter : Converter) (source : Source)
    (outlet : Outlet) (listening : Bool) :
    let strict := (converter.withStrict true).convert source outlet listening
    let lenient := (converter.withStrict false).convert source outlet listening
    ((∀ byte offset, strict.result ≠ .error (.unknownTerminator byte offset)) →
        strict = lenient)
      ∧ (∀ byte offset, strict.result = .error (.unknownTerminator byte offset) →
          strict.outlet = outlet
            ∧ source.bytes[offset]? = some byte
            ∧ Collector.isTerminator byte = false
            ∧ strict.notices = lenient.notices.filter (·.offset < offset))
      ∧ ∀ byte offset, lenient.result ≠ .error (.unknownTerminator byte offset) := by
  intro strict lenient
  have never := convert_ne_unknownTerminator_of_lenient (converter.withStrict false) rfl source
    outlet listening
  rcases converter.convert_strict_eq_or_cut source outlet listening with same | ⟨byte, place, cut⟩
  · refine ⟨fun _ => same, fun named offset fails => ?_, never⟩
    exact absurd ((congrArg Outcome.result same).symm.trans fails) (never named offset)
  · have refused : strict.result = .error (.unknownTerminator byte place) :=
      congrArg Outcome.result cut
    refine ⟨fun passes => absurd refused (passes _ _), fun named offset fails => ?_, never⟩
    obtain ⟨unwritten, there, caused⟩ := causedBy_of_result _ rfl fails
    obtain ⟨rfl, rfl⟩ :=
      Failure.unknownTerminator.inj (Except.error.inj (refused.symm.trans fails))
    exact ⟨unwritten, there, caused.isStrict.2, congrArg Outcome.notices cut⟩

theorem convert_strict_of_foreign_final :
    ((withStrict ⟨{ width := 4 }, by decide⟩ true).convert ⟨"A\x1b[1;2AB".toUTF8.data.toList, none⟩
          {} true
        = (withStrict ⟨{ width := 4 }, by decide⟩ false).convert
            ⟨"A\x1b[1;2AB".toUTF8.data.toList, none⟩ {} true)
      ∧ ((withStrict ⟨{ width := 4 }, by decide⟩ true).convert
            ⟨"A\x1b[1;2AB\x1b[z1;2A".toUTF8.data.toList, none⟩ {} true).result
          = .error (.unknownTerminator 0x7A 10)
      ∧ ((withStrict ⟨{ width := 4 }, by decide⟩ true).convert
            ⟨"A\x1b[1;2AB\x1b[z1;2A".toUTF8.data.toList, none⟩ {} true).notices
          = ((withStrict ⟨{ width := 4 }, by decide⟩ false).convert
              ⟨"A\x1b[1;2AB\x1b[z1;2A".toUTF8.data.toList, none⟩ {} true).notices.filter
                (·.offset < 10) := by
  have passes : ((withStrict ⟨{ width := 4 }, by decide⟩ true).convert
      ⟨"A\x1b[1;2AB".toUTF8.data.toList, none⟩ {} true).result = .ok ⟨8, 1, 1⟩ := by decide +kernel
  have fails : ((withStrict ⟨{ width := 4 }, by decide⟩ true).convert
      ⟨"A\x1b[1;2AB\x1b[z1;2A".toUTF8.data.toList, none⟩ {} true).result
      = .error (.unknownTerminator 0x7A 10) := by decide +kernel
  have same := (convert_strict_eq_lenient_or_fails ⟨{ width := 4 }, by decide⟩
    ⟨"A\x1b[1;2AB".toUTF8.data.toList, none⟩ {} true).1
  have cut := (convert_strict_eq_lenient_or_fails ⟨{ width := 4 }, by decide⟩
    ⟨"A\x1b[1;2AB\x1b[z1;2A".toUTF8.data.toList, none⟩ {} true).2.1 0x7A 10 fails
  refine ⟨same fun byte offset refused => ?_, fails, cut.2.2.2⟩
  cases passes.symm.trans refused

end Converter

end AnsiCanvas
