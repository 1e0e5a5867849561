import AnsiCanvas.Proofs.Scan.Picture
import AnsiCanvas.Proofs.Screen.Grammar

/-! # The output of a conversion

Only glyphs of the code page are ever drawn, whatever the bytes of a document are.  So the
output of every conversion that succeeds follows the grammar of rows, and no control byte of
the document reaches the terminal.
-/

namespace AnsiCanvas

variable {width : Nat}

/-! ## Glyphs on the screen -/

theorem Cell.fromCodePage_blank : blank.FromCodePage := ⟨0x20, by decide⟩

theorem Stroke.fromCodePage_cell (stroke : Stroke) : stroke.cell.FromCodePage := by
  cases stroke with
  | draw cursor byte pen => exact ⟨byte, Cell.glyph_draw _ _⟩
  | eraseDisplay | eraseLine => exact Cell.fromCodePage_blank

theorem Stroke.fromCodePage_foldl_paint (place : Position) (strokes : List Stroke) {below : Cell}
    (drawn : below.FromCodePage) : (strokes.foldl (paint place) below).FromCodePage := by
  induction strokes generalizing below with
  | nil => exact drawn
  | cons stroke strokes ih =>
    apply ih
    rw [paint]
    split
    · exact stroke.fromCodePage_cell
    · exact drawn

theorem Screen.exists_cell?_of_mem {screen : Screen width} {row : Row width} {cell : Cell}
    (inRows : row ∈ screen.rows.toList) (inCells : cell ∈ row.cells.toList) :
    ∃ place, screen.cell? place = some cell := by
  obtain ⟨index, isRow⟩ := List.mem_iff_getElem?.mp inRows
  obtain ⟨column, isCell⟩ := List.mem_iff_getElem?.mp inCells
  rw [Array.getElem?_toList] at isRow
  rw [Vector.getElem?_toList] at isCell
  refine ⟨⟨column + 1, index + 1⟩, ?_⟩
  rw [cell?_of_positive _ ⟨Nat.le_add_left _ _, Nat.le_add_left _ _⟩]
  simp only [Position.rowIndex, Position.columnIndex, Nat.add_sub_cancel, isRow, Option.bind_some,
    Row.cell?, isCell]

namespace Converter

/-- Every glyph on the screen after a scan is a character of the code page. -/
theorem fromCodePage_of_scan (converter : Converter) (source : Source) (listening : Bool) :
    ∀ row ∈ (converter.scan source listening).1.canvas.screen.rows.toList,
      ∀ cell ∈ row.cells.toList, cell.FromCodePage := by
  intro row inRows cell inCells
  obtain ⟨place, found⟩ := Screen.exists_cell?_of_mem inRows inCells
  obtain ⟨within, rfl⟩ := Screen.seen_of_cell? found
  have blank := Canvas.Bounded.blank converter.width_pos converter.settings.rowLimit
  rw [scan_fst, Scan.seen_run converter.width_pos source.bytes
    (Scan.start converter.settings listening) blank within]
  apply Stroke.fromCodePage_foldl_paint
  rw [show (Scan.start converter.settings listening).canvas.screen.seen place = .blank from
    Screen.seen_blank place]
  exact Cell.fromCodePage_blank

theorem received_of_write {text : String} {before after : Outlet}
    (accepted : Outlet.write text before = .ok () after) :
    after.received = before.received ++ text.toUTF8 := by
  obtain ⟨received, _ | room⟩ := before
  · cases accepted
    rfl
  · rw [Outlet.write_limited] at accepted
    split at accepted
    · cases accepted
      rfl
    · cases accepted

theorem convert_of_ok {converter : Converter} {source : Source} {outlet : Outlet}
    {listening : Bool} {summary : Summary}
    (succeeds : (converter.convert source outlet listening).result = .ok summary) :
    summary.rows = (converter.scan source listening).1.canvas.screen.height
      ∧ (converter.scan source listening).1.canvas.screen.writeTo
          converter.settings.renderOptions outlet
        = .ok () (converter.convert source outlet listening).outlet := by
  rw [convert] at succeeds ⊢
  generalize converter.scan source listening = scanned at succeeds ⊢
  obtain ⟨scan, _ | failure⟩ := scanned
  · dsimp only at succeeds ⊢
    split at succeeds
    · next written =>
      cases succeeds
      simp only [written, and_self]
    · cases succeeds
  · cases succeeds

/-- The output of a conversion that succeeds has as many lines as the summary says rows, and
    each is made of pieces, characters of the code page and whole escapes, in the frame of
    its row.  No character of the code page is a control character.  In the whole output
    there are no control characters but one newline for each row and escape characters, and
    every escape character begins a graphic rendition with at least one code, all of which
    are bytes. -/
theorem convert_follows_grammar (converter : Converter) (source : Source) (outlet : Outlet)
    (listening : Bool) {summary : Summary}
    (succeeds : (converter.convert source outlet listening).result = .ok summary) :
    (∀ byte, ¬ Text.IsControl (Charset.glyph byte))
      ∧ ∃ rows : List (List Piece),
          let options := converter.settings.renderOptions
          let output := String.join (rows.mapIdx fun index pieces =>
            Row.framed options (index + 1) (Piece.join options.escapes pieces))
          (converter.convert source outlet listening).outlet.received
              = outlet.received ++ output.toUTF8
            ∧ rows.length = summary.rows
            ∧ output.toList.count '\n' = summary.rows
            ∧ Text.Harmless output.toList := by
  obtain ⟨height, written⟩ := convert_of_ok succeeds
  obtain ⟨rows, length, lines⟩ := Screen.exists_writeTo_eq_write_lines
    converter.settings.renderOptions (converter.fromCodePage_of_scan source listening)
  have output : Screen.lines converter.settings.renderOptions 0 rows
      = String.join (rows.mapIdx fun index pieces =>
          Row.framed converter.settings.renderOptions (index + 1)
            (Piece.join converter.settings.renderOptions.escapes pieces)) := by
    simp only [Screen.lines, Nat.zero_add]
  have rowCount : rows.length = summary.rows := length.trans height.symm
  rw [lines] at written
  refine ⟨Charset.not_isControl_glyph, rows, ?_⟩
  simp only [← output]
  exact ⟨received_of_write written, rowCount,
    (Screen.count_newline_lines _ _ rows).trans rowCount, Screen.harmless_lines _ _ rows⟩

/-- The bell and the last byte are drawn, and the escape between them moves the cursor.  The first
    row is full, so a second one is begun. -/
theorem convert_of_control_bytes :
    let outcome := convert ⟨{ width := 3, visibleEscapes := true, numberRows := true }, by decide⟩
      ⟨[0x07, 0x1B, 0x5B, 0x43, 0x9B], none⟩ {} false
    let printed := "\x1b[0m    1: \x1b[96m^[\x1b[0m[37;40m• ¢\x1b[0m|\n"
      ++ "\x1b[0m    2: \x1b[96m^[\x1b[0m[37;40m   \x1b[0m|\n"
    outcome.result = .ok ⟨5, 2, 0⟩ ∧ outcome.outlet.text = printed
      ∧ printed.toList.count '\n' = 2 ∧ Text.Harmless printed.toList := by
  intro outcome printed
  have succeeds : outcome.result = .ok ⟨5, 2, 0⟩ := rfl
  have shown : outcome.outlet.text = printed := by decide +kernel
  obtain ⟨-, rows, received, -, newlines, harmless⟩ := convert_follows_grammar _ _ _ _ succeeds
  -- What was received of the output is all of it.
  have whole := received.trans ByteArray.empty_append
  rw [Outlet.text, whole] at shown
  rw [(Outlet.text_received _).symm.trans shown] at newlines harmless
  exact ⟨succeeds, by rw [Outlet.text, whole, shown], newlines, harmless⟩

end Converter

end AnsiCanvas
