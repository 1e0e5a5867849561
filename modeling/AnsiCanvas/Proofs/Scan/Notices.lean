import AnsiCanvas.Proofs.Scan.Ending
import AnsiCanvas.Proofs.Scan.Later

/-! # The notices of a run

A run adds to the notices it begins with and takes none back.  Each new notice is found by the
step of a byte and has the offset of that byte.
-/

namespace AnsiCanvas

namespace Scan

variable {width : Nat} {settings : Settings}

/-- A state whose notices are all about bytes that have been taken. -/
def Noticed (scan : Scan width) : Prop :=
  ∀ notice ∈ scan.journal.notices, notice.offset < scan.offset

theorem noticed_start (settings : Settings) (listening : Bool) :
    (start settings listening).Noticed := by
  cases listening <;> exact fun _ member => nomatch member

/-- The notices that a step adds, all of them at the offset of its byte. -/
theorem notices_step (settings : Settings) (byte : UInt8) (scan : Scan width) :
    (scan.step settings byte).1.journal.notices = scan.journal.notices
      ∨ (scan.step settings byte).2 = none
        ∧ (scan.step settings byte).1.journal.notices
          = scan.journal.notices
            ++ ((scan.canvas.perform settings.rowLimit (scan.event byte)).2.map
                (Notice.mk · scan.offset)).toArray := by
  cases ends : (scan.event byte).ending? settings.unhandled scan.offset with
  | some ending =>
    rw [step_of_ending ends]
    exact .inl rfl
  | none =>
    rw [step_of_continuing ends]
    dsimp only
    rw [Journal.notices_record]
    split
    · exact .inr ⟨rfl, rfl⟩
    · exact .inl (Array.append_empty)

theorem Noticed.step (settings : Settings) {scan : Scan width} (noticed : scan.Noticed)
    (byte : UInt8) :
    (scan.step settings byte).1.Noticed := by
  have offset := (step_frame settings byte scan).2.2
  intro notice member
  rw [offset]
  rcases notices_step settings byte scan with same | ⟨-, more⟩
  · rw [same] at member
    exact Nat.lt_succ_of_lt (noticed notice member)
  · rw [more] at member
    rcases Array.mem_append.mp member with earlier | new
    · exact Nat.lt_succ_of_lt (noticed notice earlier)
    · obtain ⟨diagnostic, -, rfl⟩ := List.mem_map.mp (List.mem_toArray.mp new)
      exact Nat.lt_succ_self _

/-- After a run that takes all bytes, all notices are about earlier ones. -/
theorem noticed_of_exhausted {bytes : List UInt8} {listening : Bool} {last : Scan settings.width}
    (exhausted : run settings bytes (start settings listening) = (last, .exhausted)) :
    last.Noticed := by
  have noticed := run_invariant Noticed (fun _ byte holds => holds.step settings byte)
    (noticed_start settings listening) bytes
  rwa [exhausted] at noticed

/-- A run adds notices, none of them about a byte before those it takes. -/
theorem exists_notices_run (settings : Settings) (bytes : List UInt8) (scan : Scan width) :
    ∃ found : Array Notice,
      (run settings bytes scan).1.journal.notices = scan.journal.notices ++ found
        ∧ ∀ notice ∈ found, scan.offset ≤ notice.offset := by
  have kept := isKept_run settings bytes (fresh scan.collector scan.canvas scan.journal.isKept)
  rw [fresh, Journal.isKept_blank, ← fresh] at kept
  rw [run_eq_after_fresh]
  refine ⟨_, Journal.notices_after kept scan.offset, ?_⟩
  intro notice member
  obtain ⟨found, -, rfl⟩ := Array.mem_map.mp member
  exact Nat.le_add_right _ _

/-- The notices that a run begins with are those about earlier bytes. -/
theorem filter_notices_run (settings : Settings) {scan : Scan width} (noticed : scan.Noticed)
    (bytes : List UInt8) :
    (run settings bytes scan).1.journal.notices.filter (·.offset < scan.offset)
      = scan.journal.notices := by
  obtain ⟨found, notices, late⟩ := exists_notices_run settings bytes scan
  have earlier : scan.journal.notices.filter (·.offset < scan.offset) = scan.journal.notices :=
    Array.filter_eq_self.mpr fun notice member => decide_eq_true (noticed notice member)
  have later : found.filter (·.offset < scan.offset) = #[] :=
    Array.filter_eq_empty_iff.mpr fun notice member =>
      by simpa using late notice member
  rw [notices, Array.filter_append Array.size_append, earlier, later, Array.append_empty]

/-- Every notice that a run adds is found by the step of the byte it is about. -/
theorem exists_step_of_mem_notices {bytes : List UInt8} {scan : Scan width} {notice : Notice}
    (member : notice ∈ (run settings bytes scan).1.journal.notices)
    (new : notice ∉ scan.journal.notices) :
    ∃ before byte after middle, bytes = before ++ byte :: after
      ∧ run settings before scan = (middle, .exhausted)
      ∧ notice.offset = middle.offset
      ∧ notice.diagnostic
        ∈ (middle.canvas.perform settings.rowLimit (middle.event byte)).2 := by
  induction bytes generalizing scan with
  | nil => exact absurd member new
  | cons byte rest ih =>
    -- The notice is new either after this byte or not before a later one.
    by_cases added : notice ∈ (scan.step settings byte).1.journal.notices
    · rcases notices_step settings byte scan with same | ⟨-, more⟩
      · rw [same] at added
        exact absurd added new
      · rw [more] at added
        have here := (Array.mem_append.mp added).resolve_left new
        obtain ⟨diagnostic, found, rfl⟩ := List.mem_map.mp (List.mem_toArray.mp here)
        exact ⟨[], byte, rest, scan, rfl, rfl, rfl, found⟩
    · rw [run] at member
      cases stepped : scan.step settings byte with
      | mk next ending =>
        rw [stepped] at member added
        cases ending with
        | some ending => exact absurd member added
        | none =>
          obtain ⟨before, other, after, middle, rfl, exhausted, offset, found⟩ := ih member added
          refine ⟨byte :: before, other, after, middle, rfl, ?_, offset, found⟩
          rw [run, stepped]
          exact exhausted

end Scan

namespace Converter

variable (converter : Converter) {listening : Bool}

/-- What has been found up to a byte that does not end a document is not taken back. -/
theorem exists_notices_of_continuing {before : List UInt8} {byte : UInt8}
    {middle next : Scan converter.settings.width}
    (exhausted : Scan.run converter.settings before (Scan.start converter.settings listening)
      = (middle, .exhausted))
    (continues : middle.step converter.settings byte = (next, none))
    (after : List UInt8) (cause : Option String) (outlet : Outlet) :
    ∃ following,
      (converter.convert ⟨before ++ byte :: after, cause⟩ outlet listening).notices
        = next.journal.notices ++ following := by
  obtain ⟨following, notices, -⟩ := Scan.exists_notices_run converter.settings after next
  refine ⟨following, ?_⟩
  rw [notices_convert_append _ exhausted, Scan.run_cons_of_none continues, notices]

/-- The notices about the first bytes of a document are those found in them. -/
theorem filter_notices_convert {first : List UInt8} {middle : Scan converter.settings.width}
    (exhausted : Scan.run converter.settings first (Scan.start converter.settings listening)
      = (middle, .exhausted)) (second : List UInt8) (cause : Option String) (outlet : Outlet) :
    (converter.convert ⟨first ++ second, cause⟩ outlet listening).notices.filter
        (·.offset < first.length)
      = middle.journal.notices := by
  rw [notices_convert_append _ exhausted, ← Scan.offset_of_exhausted_start exhausted]
  exact Scan.filter_notices_run _ (Scan.noticed_of_exhausted exhausted) second

end Converter

end AnsiCanvas
