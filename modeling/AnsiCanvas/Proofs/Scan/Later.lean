import AnsiCanvas.Proofs.Scan.Run

/-! # Runs that begin later

A scan writes into its journal and counts its bytes, but it never looks at either.  So a
run that begins with another journal and at another offset takes the same course: it finds
the same diagnostics, all of them later by the same distance, and ends in the same way.
-/

namespace AnsiCanvas

def Notice.later (distance : Nat) (notice : Notice) : Notice :=
  { notice with offset := distance + notice.offset }

/-- A failure met further on in a document. -/
def Failure.later (distance : Nat) : Failure → Failure
  | unknownTerminator byte offset => unknownTerminator byte (distance + offset)
  | unhandledCommand letter offset => unhandledCommand letter (distance + offset)
  | read offset cause => read (distance + offset) cause
  | write cause => write cause
  | invalidWidth width => invalidWidth width

def Ending.later (distance : Nat) : Ending → Ending
  | exhausted => exhausted
  | stopped => stopped
  | failed failure => failed (failure.later distance)

/-- The journal of a part of a document that follows after another. -/
def Journal.after (earlier : Journal) (distance : Nat) (journal : Journal) : Journal where
  count := earlier.count + journal.count
  kept := earlier.kept.bind fun before =>
    journal.kept.map fun notices => before ++ notices.map (Notice.later distance)

variable {width : Nat}

/-- The state of a scan, seen as what follows after an earlier part of the document. -/
def Scan.after (earlier : Journal) (distance : Nat) (scan : Scan width) : Scan width :=
  { scan with journal := earlier.after distance scan.journal, offset := distance + scan.offset }

/-! ## Offsets -/

theorem Notice.later_comp_later (first second : Nat) :
    Notice.later second ∘ Notice.later first = Notice.later (first + second) := by
  funext notice
  simp only [Function.comp_apply, later, Nat.add_left_comm, Nat.add_assoc]

theorem Failure.later_comp_later (first second : Nat) :
    Failure.later second ∘ Failure.later first = Failure.later (first + second) := by
  funext failure
  cases failure <;> simp only [Function.comp_apply, later, Nat.add_left_comm, Nat.add_assoc]

theorem Event.ending?_later (policy : UnhandledPolicy) (distance offset : Nat) (event : Event) :
    event.ending? policy (distance + offset)
      = (event.ending? policy offset).map (Ending.later distance) := by
  cases event with
  | rejected error => cases error <;> rfl
  | command command => cases command <;> cases policy <;> rfl
  | stop | draw | carriageReturn | lineFeed | silence => rfl

/-! ## Journals -/

namespace Journal

/-- Whether somebody listens. -/
def isKept (journal : Journal) : Bool := journal.kept.isSome

@[simp] theorem isKept_blank (listening : Bool) : (blank listening).isKept = listening := by
  cases listening <;> rfl

@[simp] theorem isKept_record (journal : Journal) (found : List Diagnostic) (offset : Nat) :
    (journal.record found offset).isKept = journal.isKept := by
  simp [record, isKept]

theorem record_nil (journal : Journal) (offset : Nat) : journal.record [] offset = journal := by
  obtain ⟨count, kept⟩ := journal
  simp [record]

theorem count_record (journal : Journal) (found : List Diagnostic) (offset : Nat) :
    (journal.record found offset).count = journal.count + found.length := rfl

theorem notices_record (journal : Journal) (found : List Diagnostic) (offset : Nat) :
    (journal.record found offset).notices
      = journal.notices
        ++ if journal.isKept then (found.map (Notice.mk · offset)).toArray else #[] := by
  obtain ⟨count, kept⟩ := journal
  cases kept <;> simp [record, notices, isKept]

theorem record_after (earlier : Journal) (distance : Nat) (journal : Journal)
    (found : List Diagnostic) (offset : Nat) :
    (earlier.after distance journal).record found (distance + offset)
      = earlier.after distance (journal.record found offset) := by
  obtain ⟨count, kept⟩ := journal
  obtain ⟨earlierCount, earlierKept⟩ := earlier
  cases earlierKept <;> cases kept <;> simp [record, after, Nat.add_assoc, Notice.later,
    Function.comp_def]

theorem after_blank (journal : Journal) (distance : Nat) :
    journal.after distance (blank journal.isKept) = journal := by
  obtain ⟨count, kept⟩ := journal
  cases kept <;> simp [after, blank, isKept]

theorem notices_after {earlier journal : Journal} (both : journal.isKept = earlier.isKept)
    (distance : Nat) :
    (earlier.after distance journal).notices
      = earlier.notices ++ journal.notices.map (Notice.later distance) := by
  obtain ⟨count, kept⟩ := journal
  obtain ⟨earlierCount, earlierKept⟩ := earlier
  cases earlierKept <;> cases kept <;> simp_all [after, notices, isKept]

end Journal

/-! ## Runs -/

namespace Scan

theorem step_after (settings : Settings) (byte : UInt8) (earlier : Journal) (distance : Nat)
    (scan : Scan width) :
    (scan.after earlier distance).step settings byte
      = ((scan.step settings byte).1.after earlier distance,
          (scan.step settings byte).2.map (Ending.later distance)) := by
  obtain ⟨collector, canvas, journal, offset⟩ := scan
  simp only [step, after, Event.ending?_later]
  cases (Event.ofByte collector byte).2.ending? settings.unhandled offset with
  | some ending => rfl
  | none => simp only [Option.map_none, Journal.record_after, Nat.add_assoc]

/-- A run takes the same course after any earlier part of a document. -/
theorem run_after (settings : Settings) (bytes : List UInt8) (earlier : Journal) (distance : Nat)
    (scan : Scan width) :
    run settings bytes (scan.after earlier distance)
      = ((run settings bytes scan).1.after earlier distance,
          (run settings bytes scan).2.later distance) := by
  induction bytes generalizing scan with
  | nil => rfl
  | cons byte rest ih =>
    rw [run, run, step_after]
    rcases scan.step settings byte with ⟨next, _ | ending⟩
    · exact ih next
    · rfl

/-- A scan that has found nothing yet. -/
def fresh (collector : Collector) (canvas : Canvas width) (listening : Bool) : Scan width :=
  ⟨collector, canvas, .blank listening, 0⟩

/-- A run is what a fresh run finds, after what was found before. -/
theorem run_eq_after_fresh (settings : Settings) (bytes : List UInt8) (scan : Scan width) :
    run settings bytes scan
      = ((run settings bytes (fresh scan.collector scan.canvas scan.journal.isKept)).1.after
            scan.journal scan.offset,
          (run settings bytes (fresh scan.collector scan.canvas scan.journal.isKept)).2.later
            scan.offset) := by
  have same : scan = (fresh scan.collector scan.canvas scan.journal.isKept).after scan.journal
      scan.offset := by
    obtain ⟨collector, canvas, journal, offset⟩ := scan
    simp only [fresh, after, Journal.after_blank, Nat.add_zero]
  rw [← run_after, ← same]

theorem isKept_run (settings : Settings) (bytes : List UInt8) (scan : Scan width) :
    (run settings bytes scan).1.journal.isKept = scan.journal.isKept := by
  apply run_invariant (fun state => state.journal.isKept = scan.journal.isKept) _ rfl
  rintro ⟨collector, canvas, journal, offset⟩ byte kept
  simp only [step]
  split
  · exact kept
  · exact (Journal.isKept_record _ _ _).trans kept

end Scan

end AnsiCanvas
