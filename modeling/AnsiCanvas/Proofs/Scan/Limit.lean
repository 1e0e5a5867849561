import AnsiCanvas.Proofs.Canvas.Limit
import AnsiCanvas.Proofs.Scan.Bounds
import AnsiCanvas.Proofs.Scan.Lockstep
import AnsiCanvas.Proofs.Scan.Notices

/-! # Scans under a row limit

A limit that no target of the cursor exceeds is as good as any other that leaves room for the
screen, and as good as none.  A limit that is exceeded is reported, and the cursor is on its
row right after the byte that exceeded it.
-/

namespace AnsiCanvas

variable {width : Nat}

namespace Scan

theorem bounded_run {settings : Settings} (nonempty : 0 < width) {scan : Scan width}
    (bounded : scan.canvas.Bounded settings.rowLimit) (bytes : List UInt8) :
    (run settings bytes scan).1.canvas.Bounded settings.rowLimit :=
  run_invariant (fun state => state.canvas.Bounded settings.rowLimit)
    (fun _ byte holds => bounded_step nonempty holds byte) bounded bytes

/-- The screen never loses a row. -/
theorem height_le_run {settings : Settings} (nonempty : 0 < width) {scan : Scan width}
    (bounded : scan.canvas.Bounded settings.rowLimit) (bytes : List UInt8) :
    scan.canvas.screen.height ≤ (run settings bytes scan).1.canvas.screen.height := by
  refine (run_invariant (fun state => state.canvas.Bounded settings.rowLimit
      ∧ scan.canvas.screen.height ≤ state.canvas.screen.height) ?_ ⟨bounded, Nat.le_refl _⟩
    bytes).2
  rintro state byte ⟨kept, higher⟩
  refine ⟨bounded_step nonempty kept byte, ?_⟩
  rw [height_step kept byte]
  exact Nat.le_trans higher (Nat.le_max_left _ _)

/-- Steps differ by the row limit only if one of the limits is reached. -/
theorem step_eq_or_reached (settings : Settings) (rowLimit : Nat) (byte : UInt8)
    {scan : Scan width} (bounded : scan.canvas.Bounded settings.rowLimit) :
    scan.step { settings with rowLimit } byte = scan.step settings byte
      ∨ (scan.step settings byte).2 = none
        ∧ ((∃ row bound, .rowLimit row bound
              ∈ (scan.canvas.perform settings.rowLimit (scan.event byte)).2)
          ∨ 0 < rowLimit ∧ rowLimit < (scan.step settings byte).1.canvas.screen.height) := by
  cases ends : (scan.event byte).ending? settings.unhandled scan.offset with
  | some ending =>
    left
    rw [step_of_ending ends]
    exact step_of_ending ends
  | none =>
    rw [canvas_step, step_of_continuing ends, Classical.or_iff_not_imp_right]
    intro unreached
    -- With neither limit reached, the same is done on the canvas.
    obtain ⟨quiet, room⟩ := not_or.mp (fun reached => unreached ⟨rfl, reached⟩)
    have same : scan.canvas.perform rowLimit (scan.event byte)
        = scan.canvas.perform settings.rowLimit (scan.event byte) := by
      refine Canvas.perform_of_unreached bounded.cursor
        (fun row bound found => quiet ⟨row, bound, found⟩) ?_
      omega
    rw [← same]
    exact step_of_continuing ends

/-- What the step of a byte finds is among the notices, if somebody listens. -/
theorem mem_notices_step {settings : Settings} {byte : UInt8} {scan next : Scan width}
    (heard : scan.journal.isKept = true) (continues : scan.step settings byte = (next, none))
    {diagnostic : Diagnostic}
    (found : diagnostic ∈ (scan.canvas.perform settings.rowLimit (scan.event byte)).2) :
    ⟨diagnostic, scan.offset⟩ ∈ next.journal.notices := by
  have ends := (step_frame settings byte scan).1
  rw [continues] at ends
  rw [step_of_continuing ends.symm] at continues
  obtain rfl := congrArg Prod.fst continues
  dsimp only
  rw [Journal.notices_record, if_pos heard]
  exact Array.mem_append_right _ (List.mem_toArray.mpr (List.mem_map_of_mem found))

/-- Of a limit that is not reached nothing is seen in a run to which somebody listens. -/
theorem run_of_limit_unreached {settings : Settings} (nonempty : 0 < width) {bytes : List UInt8}
    {scan : Scan width} (bounded : scan.canvas.Bounded settings.rowLimit)
    (heard : scan.journal.isKept = true)
    (quiet : ∀ notice ∈ (run settings bytes scan).1.journal.notices, ∀ row bound,
      notice.diagnostic ≠ .rowLimit row bound) {rowLimit : Nat}
    (room : rowLimit = 0 ∨ (run settings bytes scan).1.canvas.screen.height ≤ rowLimit) :
    run { settings with rowLimit } bytes scan = run settings bytes scan := by
  rcases run_in_step_or_part settings { settings with rowLimit } id bytes scan with
    inStep | ⟨before, byte, after, middle, rfl, exhausted, -, parts⟩
  · exact inStep
  · exfalso
    -- The byte at which the runs part reaches a limit, and what tells of it is still there at
    -- the end of the run.
    have kept : middle.journal.isKept = true := by
      rw [← heard, ← isKept_run settings before scan, exhausted]
    have stays : middle.canvas.Bounded settings.rowLimit := by
      have stays := bounded_run nonempty bounded before
      rwa [exhausted] at stays
    have reached := (step_eq_or_reached settings rowLimit byte stays).resolve_left parts
    cases stepped : middle.step settings byte with
    | mk next ending =>
      rw [stepped] at reached
      obtain ⟨rfl, reached⟩ := reached
      rw [run_append exhausted, run_cons_of_none stepped] at quiet room
      rcases reached with ⟨row, bound, found⟩ | ⟨positive, exceeded⟩
      · obtain ⟨later, notices, -⟩ := exists_notices_run settings after next
        refine quiet ⟨.rowLimit row bound, middle.offset⟩ ?_ row bound rfl
        rw [notices]
        exact Array.mem_append_left _ (mem_notices_step kept stepped found)
      · have nextBounded : next.canvas.Bounded settings.rowLimit := by
          have nextBounded := bounded_step nonempty stays byte
          rwa [stepped] at nextBounded
        have higher := height_le_run nonempty nextBounded after
        dsimp only at exceeded
        omega

/-- Where a notice says that the limit is exceeded, the byte it is about takes the cursor to the
    last row that the limit allows. -/
theorem cursor_of_rowLimit_notice {settings : Settings} {bytes : List UInt8} {scan : Scan width}
    {notice : Notice} (member : notice ∈ (run settings bytes scan).1.journal.notices)
    (new : notice ∉ scan.journal.notices) {row bound : Nat}
    (exceeded : notice.diagnostic = .rowLimit row bound) :
    bound = settings.rowLimit ∧ 0 < bound ∧ bound < row
      ∧ ∃ before byte after, bytes = before ++ byte :: after
          ∧ notice.offset = scan.offset + before.length
          ∧ (run settings (before ++ [byte]) scan).1.canvas.cursor.row = bound := by
  obtain ⟨before, byte, after, middle, rfl, exhausted, offset, found⟩ :=
    exists_step_of_mem_notices member new
  rw [exceeded] at found
  obtain ⟨rfl, positive, below, held⟩ := Canvas.cursor_of_rowLimit found
  refine ⟨rfl, positive, below, before, byte, after, rfl, ?_, ?_⟩
  · rw [offset, offset_of_exhausted exhausted]
  · rw [run_append exhausted, run_singleton, canvas_step]
    exact held

end Scan

namespace Converter

/-- The converter with the same settings but for the row limit. -/
def withRowLimit (converter : Converter) (rowLimit : Nat) : Converter where
  settings := { converter.settings with rowLimit }
  width_pos := converter.width_pos

theorem convert_withRowLimit_of_quiet (converter : Converter) (source : Source) (outlet : Outlet)
    (quiet : ∀ notice ∈ (converter.convert source outlet true).notices, ∀ row bound,
      notice.diagnostic ≠ .rowLimit row bound) {rowLimit : Nat}
    (room : rowLimit = 0 ∨ (converter.scan source true).1.canvas.screen.height ≤ rowLimit) :
    (converter.withRowLimit rowLimit).convert source outlet true
      = converter.convert source outlet true := by
  obtain ⟨bytes, cause⟩ := source
  rw [notices_convert] at quiet
  rw [scan_fst] at quiet room
  have blank := Canvas.Bounded.blank converter.width_pos converter.settings.rowLimit
  have unlimited := Scan.run_of_limit_unreached converter.width_pos blank rfl quiet room
  cases taken : Scan.run converter.settings bytes (Scan.start converter.settings true) with
  | mk last ending =>
    rw [taken] at unlimited
    exact (convert_of_run (converter.withRowLimit rowLimit) unlimited cause outlet).trans
      (convert_of_run _ taken cause outlet).symm

/-- The row limit is invisible until it is reached.  Where no diagnostic says that it was, every
    limit that leaves room for the screen, and no limit at all, lead to the same conversion.
    Where one does, it names the limit and a row past it, and the byte it is about has left the
    cursor on the last row that the limit allows. -/
theorem convert_of_limit_unreached (converter : Converter) (source : Source) (outlet : Outlet) :
    let heard := converter.convert source outlet true
    let height := (converter.scan source true).1.canvas.screen.height
    ((∀ notice ∈ heard.notices, ∀ row bound, notice.diagnostic ≠ .rowLimit row bound) →
        ∀ rowLimit, rowLimit = 0 ∨ height ≤ rowLimit → ∀ listening,
          (converter.withRowLimit rowLimit).convert source outlet listening
            = converter.convert source outlet listening)
      ∧ ∀ notice ∈ heard.notices, ∀ row bound, notice.diagnostic = .rowLimit row bound →
          bound = converter.settings.rowLimit ∧ 0 < bound ∧ bound < row
            ∧ notice.offset < source.bytes.length
            ∧ (Scan.run converter.settings (source.bytes.take (notice.offset + 1))
                (Scan.start converter.settings true)).1.canvas.cursor.row = bound := by
  intro heard height
  constructor
  · intro quiet rowLimit room listening
    have same := converter.convert_withRowLimit_of_quiet source outlet quiet room
    cases listening with
    | true => exact same
    | false => rw [convert_unheard, same, ← convert_unheard]
  · intro notice member row bound exceeded
    rw [notices_convert, scan_fst] at member
    obtain ⟨bytes, cause⟩ := source
    obtain ⟨rfl, positive, below, before, byte, after, rfl, offset, held⟩ :=
      Scan.cursor_of_rowLimit_notice member (fun earlier => nomatch earlier) exceeded
    have here : notice.offset = before.length := offset.trans (Nat.zero_add _)
    refine ⟨rfl, positive, below, ?_, ?_⟩
    · rw [here, List.length_append, List.length_cons]
      omega
    · rw [here, List.take_length_add_append, List.take_succ_cons, List.take_zero]
      exact held

theorem convert_of_line_feeds :
    ((withRowLimit ⟨{ width := 4, rowLimit := 2 }, by decide⟩ 0).convert
          ⟨[0x41, 0x0A, 0x42], none⟩ {} false
        = convert ⟨{ width := 4, rowLimit := 2 }, by decide⟩ ⟨[0x41, 0x0A, 0x42], none⟩ {} false)
      ∧ ⟨.rowLimit 3 2, 2⟩ ∈ (convert ⟨{ width := 4, rowLimit := 2 }, by decide⟩
          ⟨[0x41, 0x0A, 0x0A, 0x42], none⟩ {} true).notices
      ∧ (Scan.run { width := 4, rowLimit := 2 } [0x41, 0x0A, 0x0A]
          (Scan.start { width := 4, rowLimit := 2 } true)).1.canvas.cursor.row = 2 := by
  have quiet : (convert ⟨{ width := 4, rowLimit := 2 }, by decide⟩
      ⟨[0x41, 0x0A, 0x42], none⟩ {} true).notices = #[] := by decide +kernel
  have loud : ⟨.rowLimit 3 2, 2⟩ ∈ (convert ⟨{ width := 4, rowLimit := 2 }, by decide⟩
      ⟨[0x41, 0x0A, 0x0A, 0x42], none⟩ {} true).notices := by decide +kernel
  have invisible := (convert_of_limit_unreached ⟨{ width := 4, rowLimit := 2 }, by decide⟩
    ⟨[0x41, 0x0A, 0x42], none⟩ {}).1
  have visible := (convert_of_limit_unreached ⟨{ width := 4, rowLimit := 2 }, by decide⟩
    ⟨[0x41, 0x0A, 0x0A, 0x42], none⟩ {}).2 _ loud 3 2 rfl
  refine ⟨invisible (fun notice member => ?_) 0 (.inl rfl) false, loud, visible.2.2.2.2⟩
  simp [quiet] at member

end Converter

end AnsiCanvas
