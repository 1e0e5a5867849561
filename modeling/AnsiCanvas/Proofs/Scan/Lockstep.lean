import AnsiCanvas.Proofs.Scan.Conversion
import AnsiCanvas.Proofs.Scan.Later

/-! # Runs in step

Two runs over the same bytes, with other settings or from another view of the same state, are
compared step by step.  Either they stay in step to the end or there is a first byte at which
they part, and then they have stayed in step until there.  So what two runs have in common
comes down to what a single step can do.

The first use is for the journal: whether somebody listens does not matter to a run.
-/

namespace AnsiCanvas

variable {width : Nat}

namespace Scan

/-- Two runs stay in step all the way, or they part at a first byte. -/
theorem run_in_step_or_part (settings others : Settings) (view : Scan width → Scan width)
    (bytes : List UInt8) (scan : Scan width) :
    run others bytes (view scan) = (run settings bytes scan).map view id
      ∨ ∃ before byte after middle, bytes = before ++ byte :: after
          ∧ run settings before scan = (middle, .exhausted)
          ∧ run others before (view scan) = (view middle, .exhausted)
          ∧ (view middle).step others byte ≠ (middle.step settings byte).map view id := by
  induction bytes generalizing scan with
  | nil => exact .inl rfl
  | cons byte rest ih =>
    -- Steps that agree lead to states that are again seen alike.
    by_cases agree : (view scan).step others byte = (scan.step settings byte).map view id
    · rw [run, run, agree]
      cases stepped : scan.step settings byte with
      | mk next ending =>
        rw [stepped] at agree
        cases ending with
        | some ending => exact .inl rfl
        | none =>
          rcases ih next with inStep | ⟨before, other, after, middle, rfl, first, second, parts⟩
          · exact .inl inStep
          · refine .inr ⟨byte :: before, other, after, middle, rfl, ?_, ?_, parts⟩
            · rw [run, stepped]
              exact first
            · rw [run, agree]
              exact second
    · exact .inr ⟨[], byte, rest, scan, rfl, rfl, rfl, agree⟩

/-! ## Listening -/

/-- The state of a scan to which nobody listens. -/
def unheard (scan : Scan width) : Scan width :=
  { scan with journal := { scan.journal with kept := none } }

theorem step_unheard (settings : Settings) (byte : UInt8) (scan : Scan width) :
    scan.unheard.step settings byte = (scan.step settings byte).map unheard id := by
  obtain ⟨collector, canvas, journal, offset⟩ := scan
  simp only [step, unheard]
  split <;> rfl

theorem run_unheard (settings : Settings) (bytes : List UInt8) (scan : Scan width) :
    run settings bytes scan.unheard = (run settings bytes scan).map unheard id := by
  rcases run_in_step_or_part settings settings unheard bytes scan with
    inStep | ⟨_, byte, _, middle, -, -, -, parts⟩
  · exact inStep
  · exact absurd (step_unheard settings byte middle) parts

end Scan

/-- Whether somebody listens makes no difference but for the diagnostics that are kept. -/
theorem Converter.convert_unheard (converter : Converter) (source : Source) (outlet : Outlet) :
    converter.convert source outlet false
      = { converter.convert source outlet true with notices := #[] } := by
  obtain ⟨bytes, cause⟩ := source
  cases heard : Scan.run converter.settings bytes (Scan.start converter.settings true) with
  | mk scan ending =>
    have unheard : Scan.run converter.settings bytes (Scan.start converter.settings false)
        = (scan.unheard, ending) :=
      (Scan.run_unheard converter.settings bytes _).trans (congrArg _ heard)
    rw [convert_of_run _ heard, convert_of_run _ unheard]
    exact @Outcome.ofScan_journal _ converter.settings.renderOptions outlet scan
      scan.unheard.journal rfl _

end AnsiCanvas
