import AnsiCanvas.Proofs.Scan.Findings
import AnsiCanvas.Proofs.Scan.Limit

/-! # Saving and restoring

What is saved is written by save sequences alone, so between two of them it is what the first has
saved, whatever else a document does.  Going back to it changes the cursor and the pen and nothing
else: the saved row was once the row of the cursor, and rows never go away.
-/

namespace AnsiCanvas

variable {width : Nat}

/-! ## The saved cursor -/

namespace Canvas

/-- Of all events a save is the only one that writes what is saved. -/
theorem saved_perform (limit : Nat) (event : Event) (canvas : Canvas width) :
    (canvas.perform limit event).1.saved
      = if event = .command .save then ⟨canvas.cursor, canvas.pen⟩ else canvas.saved := by
  cases event with
  | draw | carriageReturn | lineFeed | stop | silence | rejected => rfl
  | command command =>
    cases command with
    | eraseDisplay extent => cases extent <;> rfl
    | save | restore | place | move | eraseLine | rendition | ignored | unhandled => rfl

/-- A canvas with the cursor and the pen that it has saved. -/
def restored (canvas : Canvas width) : Canvas width :=
  { canvas with cursor := canvas.saved.position, pen := canvas.saved.pen }

theorem Bounded.restored {limit : Nat} {canvas : Canvas width} (bounded : canvas.Bounded limit) :
    canvas.restored.Bounded limit :=
  { bounded with cursor := bounded.saved, pen := bounded.savedPen }

/-- Going back to the saved cursor needs no new row. -/
theorem perform_restore {limit : Nat} {canvas : Canvas width} (bounded : canvas.Bounded limit) :
    canvas.perform limit (.command .restore) = (canvas.restored, []) := by
  obtain ⟨screen, cursor, pen, saved⟩ := canvas
  have inside : saved.position.row ≤ screen.height := bounded.saved.row_le
  have same : screen.touch saved.position.row = screen := if_neg (Nat.not_lt.mpr inside)
  simp only [perform, obey, same, restored]

end Canvas

namespace Scan

variable {settings : Settings}

/-- No save sequence is completed in a run. -/
def SavesNothing (settings : Settings) (bytes : List UInt8) (scan : Scan width) : Prop :=
  ∀ entry ∈ trace settings bytes scan, entry.2 ≠ .command .save

theorem saved_step (settings : Settings) (byte : UInt8) (scan : Scan width) :
    (scan.step settings byte).1.canvas.saved
      = if scan.event byte = .command .save then ⟨scan.canvas.cursor, scan.canvas.pen⟩
        else scan.canvas.saved := by
  rw [canvas_step, Canvas.saved_perform]

/-- A run without a save keeps what was saved before it. -/
theorem saved_run {bytes : List UInt8} {scan : Scan width}
    (quiet : SavesNothing settings bytes scan) :
    (run settings bytes scan).1.canvas.saved = scan.canvas.saved := by
  induction bytes generalizing scan with
  | nil => rfl
  | cons byte rest ih =>
    have kept := saved_step settings byte scan
    rw [if_neg (quiet (scan, scan.event byte) List.mem_cons_self)] at kept
    cases stepped : scan.step settings byte with
    | mk next ending =>
      rw [stepped] at kept
      cases ending with
      | none =>
        rw [SavesNothing, trace_cons_of_none stepped] at quiet
        rw [run_cons_of_none stepped,
          ih fun entry member => quiet entry (List.mem_cons_of_mem _ member), kept]
      | some ending =>
        rw [run, stepped]
        exact kept

/-! ## Restore sequences -/

/-- The escape character begins a sequence whether or not one is open. -/
theorem run_escape (rest : List UInt8) (scan : Scan width) :
    run settings (0x1B :: rest) scan
      = run settings (0x1B :: rest) { scan with collector := scan.collector.reset } := by
  obtain ⟨⟨strict, _ | bytes⟩, canvas, journal, offset⟩ := scan
  · rfl
  · rfl

/-- One restore sequence, wherever it begins, restores the canvas and is done. -/
theorem run_restore {bytes : List UInt8} {scan : Scan width}
    (bounded : scan.canvas.Bounded settings.rowLimit)
    (escape : WholeEscape scan.collector.strict bytes (.ok .restore))
    (unstopped : ∀ byte ∈ bytes, Event.isStop byte = false) :
    run settings bytes scan
      = ({ scan with
            collector := scan.collector.reset,
            canvas := scan.canvas.restored,
            offset := scan.offset + bytes.length }, .exhausted) := by
  have passed := @run_of_wholeEscape _ settings _ _ { scan with collector := scan.collector.reset }
    escape unstopped rfl rfl
  obtain ⟨inside, ending, rfl, -, -⟩ := escape
  rw [run_escape, passed]
  simp only [Event.ofAnswer, Canvas.perform_restore bounded, Journal.record_nil]

/-- The bytes of one restore sequence. -/
structure IsRestore (strict : Bool) (bytes : List UInt8) : Prop where
  escape : WholeEscape strict bytes (.ok .restore)
  unstopped : ∀ byte ∈ bytes, Event.isStop byte = false

/-- However many restore sequences follow one another, the canvas is restored. -/
theorem run_restores {restores : List (List UInt8)} (some? : restores ≠ []) {scan : Scan width}
    (bounded : scan.canvas.Bounded settings.rowLimit)
    (each : ∀ restore ∈ restores, IsRestore scan.collector.strict restore) :
    ∃ final, run settings restores.flatten scan = (final, .exhausted)
      ∧ final.canvas = scan.canvas.restored := by
  induction restores generalizing scan with
  | nil => contradiction
  | cons restore restores ih =>
    obtain ⟨escape, unstopped⟩ := each restore List.mem_cons_self
    have passed := run_restore bounded escape unstopped
    rw [List.flatten_cons, run_append passed]
    by_cases last : restores = []
    · subst last
      exact ⟨_, rfl, rfl⟩
    · obtain ⟨final, exhausted, canvas⟩ := @ih last
        { scan with
            collector := scan.collector.reset,
            canvas := scan.canvas.restored,
            offset := scan.offset + restore.length }
        bounded.restored fun other member => each other (List.mem_cons_of_mem _ member)
      exact ⟨final, exhausted, canvas⟩

/-- What is saved once a save sequence has been completed and no other since. -/
theorem saved_since {before continuation : List UInt8} {byte : UInt8}
    {scan saving last : Scan width}
    (exhausted : run settings before scan = (saving, .exhausted))
    (saves : saving.event byte = .command .save)
    (ended : run settings (before ++ byte :: continuation) scan = (last, .exhausted))
    (quiet : SavesNothing settings continuation (saving.step settings byte).1) :
    last.canvas.saved = ⟨saving.canvas.cursor, saving.canvas.pen⟩ := by
  have saved := saved_step settings byte saving
  rw [if_pos saves] at saved
  have continues : (saving.event byte).ending? settings.unhandled saving.offset = none := by
    rw [saves]
    rfl
  rw [run_append exhausted, run_cons_of_none (step_of_continuing continues)] at ended
  rw [step_of_continuing continues] at saved quiet
  have kept := saved_run quiet
  rwa [ended, saved] at kept

end Scan

namespace Converter

variable {converter : Converter} {listening : Bool}

/-- Restore sequences at the end of a document that is scanned so far. -/
theorem run_append_restores {bytes : List UInt8} {last : Scan converter.settings.width}
    (exhausted : Scan.run converter.settings bytes (Scan.start converter.settings listening)
      = (last, .exhausted)) {restores : List (List UInt8)} (some? : restores ≠ [])
    (each : ∀ restore ∈ restores, Scan.IsRestore converter.settings.strict restore) :
    ∃ final, Scan.run converter.settings (bytes ++ restores.flatten)
          (Scan.start converter.settings listening) = (final, .exhausted)
      ∧ final.canvas = last.canvas.restored := by
  have blank : (Scan.start converter.settings listening).canvas.Bounded
      converter.settings.rowLimit := Canvas.Bounded.blank converter.width_pos converter.settings.rowLimit
  have bounded := Scan.bounded_run converter.width_pos blank bytes
  rw [exhausted] at bounded
  rw [← strict_of_exhausted exhausted] at each
  rw [Scan.run_append exhausted]
  exact Scan.run_restores some? bounded each

/-- A restore goes back to the last save.  Let a byte complete a save sequence, and let the
    document go on in whatever way without a failure, a stop byte and another save.  Restore
    sequences that follow, one or any number of them, set the cursor and the pen to what they were
    at the save and leave the screen as it is.  Where nothing was saved before they go to the first
    cell with the plain pen. -/
theorem restore_returns_to_save (converter : Converter) (listening : Bool) :
    let settings := converter.settings
    let start := Scan.start settings listening
    (∀ (before : List UInt8) (byte : UInt8) (saving : Scan settings.width),
        Scan.run settings before start = (saving, .exhausted) →
        saving.event byte = .command .save →
        ∀ (continuation : List UInt8) (last : Scan settings.width),
          Scan.run settings (before ++ byte :: continuation) start = (last, .exhausted) →
          Scan.SavesNothing settings continuation (saving.step settings byte).1 →
          ∀ restores : List (List UInt8), restores ≠ [] →
            (∀ restore ∈ restores, Scan.IsRestore settings.strict restore) →
            ∃ final, Scan.run settings (before ++ byte :: continuation ++ restores.flatten) start
                = (final, .exhausted)
              ∧ final.canvas.cursor = saving.canvas.cursor
              ∧ final.canvas.pen = saving.canvas.pen
              ∧ final.canvas.screen = last.canvas.screen)
      ∧ ∀ (bytes : List UInt8) (last : Scan settings.width),
          Scan.run settings bytes start = (last, .exhausted) →
          Scan.SavesNothing settings bytes start →
          ∀ restores : List (List UInt8), restores ≠ [] →
            (∀ restore ∈ restores, Scan.IsRestore settings.strict restore) →
            ∃ final, Scan.run settings (bytes ++ restores.flatten) start = (final, .exhausted)
              ∧ final.canvas.cursor = ⟨1, 1⟩
              ∧ final.canvas.pen = .plain
              ∧ final.canvas.screen = last.canvas.screen := by
  intro settings start
  constructor
  · intro before byte saving exhausted saves continuation last ended quiet restores some? each
    obtain ⟨final, passed, canvas⟩ := run_append_restores ended some? each
    have saved := Scan.saved_since exhausted saves ended quiet
    refine ⟨final, passed, ?_⟩
    rw [canvas, Canvas.restored, saved]
    exact ⟨rfl, rfl, rfl⟩
  · intro bytes last ended quiet restores some? each
    obtain ⟨final, passed, canvas⟩ := run_append_restores ended some? each
    have saved : last.canvas.saved = {} := by
      have kept := Scan.saved_run quiet
      rwa [ended] at kept
    refine ⟨final, passed, ?_⟩
    rw [canvas, Canvas.restored, saved]
    exact ⟨rfl, rfl, rfl⟩

/-- A red pen in the second column, restored twice from two rows below after the pen has been reset
    and the screen erased up to the cursor. -/
theorem restore_returns_to_red_pen :
    ∃ final, Scan.run { width := 4 }
          ("\x1b[31mA\x1b[".toUTF8.data.toList
            ++ 0x73 :: "\n\nB\x1b[0m\x1b[1J".toUTF8.data.toList
            ++ [[0x1B, 0x5B, 0x75], [0x1B, 0x5B, 0x75]].flatten)
          (Scan.start { width := 4 } false) = (final, .exhausted)
      ∧ final.canvas.cursor = ⟨2, 1⟩
      ∧ final.canvas.pen = { foreground := .classic 1 }
      ∧ final.canvas.screen.height = 3 := by
  have restore : Scan.IsRestore false [0x1B, 0x5B, 0x75] :=
    ⟨⟨[0x5B], 0x75, rfl, rfl, rfl⟩, by simp [Event.isStop]⟩
  obtain ⟨final, exhausted, cursor, pen, screen⟩ :=
    (restore_returns_to_save ⟨{ width := 4 }, by decide⟩ false).1
      "\x1b[31mA\x1b[".toUTF8.data.toList 0x73 _ (Prod.ext rfl (by decide +kernel))
      (by decide +kernel) "\n\nB\x1b[0m\x1b[1J".toUTF8.data.toList _
      (Prod.ext rfl (by decide +kernel)) (by unfold Scan.SavesNothing; decide +kernel)
      [[0x1B, 0x5B, 0x75], [0x1B, 0x5B, 0x75]] (by decide) (by simp [restore])
  refine ⟨final, exhausted, cursor.trans (by decide +kernel), pen.trans (by decide +kernel), ?_⟩
  rw [screen]
  decide +kernel

end Converter

end AnsiCanvas
