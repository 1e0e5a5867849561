import AnsiCanvas.Proofs.Scan.Ending

/-! # Where a conversion stops

A conversion stops at the end of its source, at a stop byte, or at a byte that fails it.  What
comes after is never looked at.  A stop byte counts as read and is otherwise like the end of
the source, and this is so within an escape sequence too.
-/

namespace AnsiCanvas

variable {width : Nat}

theorem Scan.step_of_stop {byte : UInt8} (stops : Event.isStop byte = true) (settings : Settings)
    (scan : Scan width) :
    scan.step settings byte = ({ scan with offset := scan.offset + 1 }, some .stopped) := by
  have found : Event.ofByte scan.collector byte = (scan.collector, .stop) :=
    Event.ofByte_of_stop stops scan.collector
  have ends : (scan.event byte).ending? settings.unhandled scan.offset = some .stopped := by
    rw [event, found]
    rfl
  rw [step_of_ending ends, found]

/-- The number of bytes taken is only told. -/
theorem Outcome.ofScan_offset (options : RenderOptions) (outlet : Outlet) (scan : Scan width)
    (offset : Nat) :
    ofScan options outlet { scan with offset } none
      = { ofScan options outlet scan none with
          result := (ofScan options outlet scan none).result.map fun summary =>
            { summary with bytesRead := offset } } := by
  simp only [ofScan]
  split <;> rfl

namespace Converter

variable (converter : Converter) {listening : Bool}

/-- Two documents that are the same as far as a byte that fails one of them fail alike. -/
theorem convert_eq_of_take_eq {source other : Source} {outlet : Outlet} {failure : Failure}
    {byte : UInt8} {offset : Nat} (blames : failure.blamed? = some (byte, offset))
    (fails : (converter.convert source outlet listening).result = .error failure)
    (same : other.bytes.take (offset + 1) = source.bytes.take (offset + 1)) :
    converter.convert other outlet listening = converter.convert source outlet listening := by
  obtain ⟨bytes, cause⟩ := source
  obtain ⟨otherBytes, otherCause⟩ := other
  obtain ⟨before, after, middle, last, rfl, rfl, exhausted, failing, -⟩ :=
    converter.exists_failing_step blames fails
  -- The other document has the failing byte too, after the same bytes.
  have begins : otherBytes.take (before.length + 1) = before ++ [byte] := by
    rw [same, List.take_length_add_append, List.take_succ_cons, List.take_zero]
  have split : otherBytes = before ++ byte :: otherBytes.drop (before.length + 1) :=
    calc otherBytes
        = otherBytes.take (before.length + 1) ++ otherBytes.drop (before.length + 1) :=
          (List.take_append_drop _ _).symm
      _ = before ++ [byte] ++ otherBytes.drop (before.length + 1) := by rw [begins]
      _ = before ++ byte :: otherBytes.drop (before.length + 1) := List.append_assoc _ _ _
  rw [split, convert_of_failing_step _ exhausted failing,
    convert_of_failing_step _ exhausted failing]

/-- A conversion depends on the bytes up to where it stops and on nothing after.  What follows
    a stop byte does not matter, nor whether it can be read, and a document that is cut short by
    a stop byte or by a failing reader has the diagnostics of what comes before.  A failure for
    a byte is that of every document that is the same as far as this byte. -/
theorem convert_determined_by_bytes_taken (converter : Converter) (outlet : Outlet)
    (listening : Bool) :
    (∀ art : List UInt8, (∀ byte ∈ art, Event.isStop byte = false) →
        (converter.scan ⟨art, none⟩ listening).2 = none →
        let alone := converter.convert ⟨art, none⟩ outlet listening
        (∀ stop, Event.isStop stop = true → ∀ trailer cause,
            converter.convert ⟨art ++ [stop] ++ trailer, cause⟩ outlet listening
              = { alone with
                  result := alone.result.map fun summary =>
                    { summary with bytesRead := art.length + 1 } })
          ∧ ∀ cause, converter.convert ⟨art, some cause⟩ outlet listening
              = ⟨.error (.read art.length cause), alone.notices, outlet⟩)
      ∧ ∀ source failure byte offset,
          failure = .unknownTerminator byte offset ∨ failure = .unhandledCommand byte offset →
          (converter.convert source outlet listening).result = .error failure →
          ∀ other : Source, other.bytes.take (offset + 1) = source.bytes.take (offset + 1) →
            converter.convert other outlet listening
              = converter.convert source outlet listening := by
  constructor
  · intro art unstopped accepted
    obtain ⟨exhausted, offset⟩ := run_of_accepted unstopped accepted
    generalize (converter.scan ⟨art, none⟩ listening).1 = last at exhausted offset
    have alone := convert_of_run converter exhausted none outlet
    dsimp only
    rw [alone]
    constructor
    · intro stop stops trailer cause
      have stopped := Scan.run_of_step exhausted (Scan.step_of_stop stops converter.settings last)
        trailer
      rw [List.append_assoc, List.singleton_append, convert_of_run converter stopped, ← offset]
      exact Outcome.ofScan_offset converter.settings.renderOptions outlet last (last.offset + 1)
    · intro cause
      rw [convert_of_run converter exhausted, Outcome.notices_ofScan, ← offset]
      rfl
  · intro source failure byte offset blamed fails other same
    have blames : failure.blamed? = some (byte, offset) := by
      rcases blamed with rfl | rfl <;> rfl
    exact converter.convert_eq_of_take_eq blames fails same

theorem convert_of_art_and_trailer :
    (convert ⟨{ width := 4, strict := true }, by decide⟩
          ⟨"A\x1b[1;2\x1aSAUCE00".toUTF8.data.toList, some "gone"⟩ {} true).result
        = .ok ⟨7, 1, 0⟩
      ∧ convert ⟨{ width := 4, strict := true }, by decide⟩
          ⟨"A\x1b[1;2".toUTF8.data.toList, some "gone"⟩ {} true
        = ⟨.error (.read 6 "gone"), #[], {}⟩
      ∧ convert ⟨{ width := 4, strict := true }, by decide⟩
          ⟨"A\x1b[zC".toUTF8.data.toList, some "gone"⟩ {} true
        = convert ⟨{ width := 4, strict := true }, by decide⟩
            ⟨"A\x1b[zB".toUTF8.data.toList, none⟩ {} true := by
  obtain ⟨cut, fatal⟩ := convert_determined_by_bytes_taken
    ⟨{ width := 4, strict := true }, by decide⟩ {} true
  have result : (convert ⟨{ width := 4, strict := true }, by decide⟩
      ⟨"A\x1b[1;2".toUTF8.data.toList, none⟩ {} true).result = .ok ⟨6, 1, 0⟩ := by decide +kernel
  have notices : (convert ⟨{ width := 4, strict := true }, by decide⟩
      ⟨"A\x1b[1;2".toUTF8.data.toList, none⟩ {} true).notices = #[] := by decide +kernel
  obtain ⟨stopped, unread⟩ := cut "A\x1b[1;2".toUTF8.data.toList (by decide +kernel)
    (by decide +kernel)
  refine ⟨?_, ?_, ?_⟩
  · have trailed := congrArg Outcome.result
      (stopped 0x1A rfl "SAUCE00".toUTF8.data.toList (some "gone"))
    rw [result] at trailed
    exact trailed
  · have failed := unread "gone"
    rw [notices] at failed
    exact failed
  · exact fatal ⟨"A\x1b[zB".toUTF8.data.toList, none⟩ _ 0x7A 3 (.inl rfl) (by decide +kernel)
      ⟨"A\x1b[zC".toUTF8.data.toList, some "gone"⟩ (by decide +kernel)

end Converter

end AnsiCanvas
