import AnsiCanvas.Proofs.Scan.Ending

/-! # Conversions into limited room

Nothing is sent to an outlet before the scan has come to a good end, and from there on all
that is sent amounts to one text.  So an outlet that runs out of room holds a beginning of what
an unlimited one receives, cut at the very byte, and a scan that fails leaves both empty.
-/

namespace AnsiCanvas

namespace Outlet

/-- An outlet that has received nothing yet and has limited room. -/
def ofRoom (room : Room) : Outlet := { room := some room }

/-- Of a text the bytes that there is room for are received, and the rest is refused. -/
theorem write_ofRoom (text : String) (room : Room) :
    ∃ after : Outlet,
      after.received = text.toUTF8.extract 0 (min room.bytes text.toUTF8.size)
        ∧ write text (ofRoom room)
          = if room.bytes < text.toUTF8.size then .error room.refusal after
            else .ok () after := by
  rw [ofRoom, write_limited, size_toUTF8, ByteArray.empty_append, ByteArray.empty_append]
  by_cases fits : text.utf8ByteSize ≤ room.bytes
  · have whole : text.toUTF8.extract 0 (min room.bytes text.utf8ByteSize) = text.toUTF8 := by
      rw [Nat.min_eq_right fits, ← size_toUTF8, ByteArray.extract_zero_size]
    rw [if_pos fits]
    exact ⟨_, whole.symm, (if_neg (Nat.not_lt.mpr fits)).symm⟩
  · have short : room.bytes < text.utf8ByteSize := Nat.lt_of_not_le fits
    rw [if_neg fits, Nat.min_eq_left (Nat.le_of_lt short)]
    exact ⟨_, rfl, (if_pos short).symm⟩

end Outlet

namespace Converter

variable {converter : Converter} {source : Source} {listening : Bool}

/-- A scan fails for a byte or for want of one, never for its settings or its outlet. -/
theorem isSome_offset?_of_scan {failure : Failure}
    (fails : (converter.scan source listening).2 = some failure) :
    failure.offset?.isSome = true := by
  obtain ⟨bytes, cause⟩ := source
  cases taken : Scan.run converter.settings bytes (Scan.start converter.settings listening) with
  | mk last ending =>
    rw [scan_of_run taken] at fails
    cases ending with
    | exhausted =>
      obtain ⟨-, -, rfl⟩ := Option.map_eq_some_iff.mp fails
      rfl
    | stopped => cases fails
    | failed cause =>
      obtain rfl := Option.some.inj fails
      obtain ⟨_, byte, _, middle, -, -, step⟩ := Scan.exists_step_of_ended taken (by simp)
      obtain ⟨caused, -⟩ := Scan.causedBy_of_step step
      cases caused <;> rfl

/-- The output of a conversion that fails is nothing or a beginning.  A scan that fails, for a
    byte of the document or because the document cannot be read on, leaves nothing in an outlet,
    whatever its room.  After a scan that does not fail, limited room receives the first bytes of
    what unlimited room receives, as many as fit.  The conversion then fails to write exactly if
    there are more, and the diagnostics are the same. -/
theorem convert_into_room (converter : Converter) (source : Source) (listening : Bool)
    (room : Outlet.Room) :
    let limited := converter.convert source (.ofRoom room) listening
    let full := converter.convert source {} listening
    (∀ failure, (converter.scan source listening).2 = some failure →
        failure.offset?.isSome = true
          ∧ limited.result = .error failure
          ∧ limited.outlet.received = .empty)
      ∧ ((converter.scan source listening).2 = none →
          ∃ summary, full.result = .ok summary
            ∧ limited.outlet.received
              = full.outlet.received.extract 0 (min room.bytes full.outlet.received.size)
            ∧ limited.result
              = (if room.bytes < full.outlet.received.size then .error (.write room.refusal)
                else .ok summary)
            ∧ limited.notices = full.notices) := by
  simp only [convert_eq_ofScan]
  constructor
  · intro failure fails
    rw [fails]
    exact ⟨isSome_offset?_of_scan fails, rfl, rfl⟩
  · intro accepted
    rw [accepted]
    generalize (converter.scan source listening).1 = scan
    -- All that is left to do is to write one text.
    simp only [Outcome.ofScan, Screen.writeTo_eq]
    generalize String.join _ = text
    obtain ⟨after, received, written⟩ := Outlet.write_ofRoom text room
    rw [Outlet.write_fresh, written]
    refine ⟨_, rfl, ?_⟩
    by_cases short : room.bytes < text.toUTF8.size
    · rw [if_pos short]
      exact ⟨received, (if_pos short).symm, rfl⟩
    · rw [if_neg short]
      exact ⟨received, (if_neg short).symm, rfl⟩

/-- Five bytes of room end within the second escape of the output. -/
theorem convert_into_five_bytes :
    (convert ⟨{ width := 1 }, by decide⟩ ⟨[0x41], none⟩ (.ofRoom ⟨5, "closed"⟩) true).outlet.received
        = "\x1b[0m\x1b".toUTF8
      ∧ (convert ⟨{ width := 1 }, by decide⟩ ⟨[0x41], none⟩ (.ofRoom ⟨5, "closed"⟩) true).result
        = .error (.write "closed")
      ∧ (convert ⟨{ width := 1 }, by decide⟩ ⟨[0x41, 0x1B, 0x63], none⟩ (.ofRoom ⟨5, "closed"⟩)
          true).result = .error (.unhandledCommand 0x63 2)
      ∧ (convert ⟨{ width := 1 }, by decide⟩ ⟨[0x41, 0x1B, 0x63], none⟩ (.ofRoom ⟨5, "closed"⟩)
          true).outlet.received = .empty := by
  have output : (convert ⟨{ width := 1 }, by decide⟩ ⟨[0x41], none⟩ {} true).outlet.received
      = "\x1b[0m\x1b[37;40mA\x1b[0m\n\x1b[0m\x1b[37;40m \x1b[0m\n".toUTF8 := rfl
  obtain ⟨_, -, received, result, -⟩ := (convert_into_room ⟨{ width := 1 }, by decide⟩
    ⟨[0x41], none⟩ true ⟨5, "closed"⟩).2 rfl
  obtain ⟨-, fails, nothing⟩ := (convert_into_room ⟨{ width := 1 }, by decide⟩
    ⟨[0x41, 0x1B, 0x63], none⟩ true ⟨5, "closed"⟩).1 (.unhandledCommand 0x63 2) rfl
  rw [output] at received result
  exact ⟨received, result, fails, nothing⟩

end Converter

end AnsiCanvas
