import AnsiCanvas.Proofs.Canvas.Limit
import AnsiCanvas.Proofs.Scan.Ending
import AnsiCanvas.Proofs.Screen.Lines

/-! # Plain text

A document of plain lines is laid out as its lines are.  A byte of a line is drawn at the place
where the line goes on, and the carriage return and the line feed between two lines lead to the
beginning of the row below.  After every byte the screen ends with the row of the cursor, and what
it shows is the page written so far.
-/

namespace AnsiCanvas

variable {width : Nat}

namespace Canvas

theorem draw_of_within {canvas : Canvas width} {limit : Nat} (positive : canvas.cursor.Positive)
    (within : canvas.cursor.column ≤ width) {next : Position}
    (onward : canvas.cursor.next? width = some next) (room : limit = 0 ∨ next.row ≤ limit)
    (byte : UInt8) :
    canvas.draw limit byte
      = ({ canvas with
            screen := (canvas.screen.write canvas.cursor
              (.draw (Charset.glyph byte) canvas.pen)).touch next.row,
            cursor := next }, []) := by
  rw [draw_of_next limit byte onward, Screen.put_of_within canvas.screen positive within,
    Position.limited_of_within room]
  rfl

theorem lineFeed_of_within {canvas : Canvas width} {limit : Nat}
    (counted : canvas.cursor.row + 1 ≤ Count.largest)
    (room : limit = 0 ∨ canvas.cursor.row + 1 ≤ limit) :
    canvas.lineFeed limit
      = ({ canvas with
            screen := canvas.screen.touch (canvas.cursor.row + 1),
            cursor := ⟨canvas.cursor.column, canvas.cursor.row + 1⟩ }, []) := by
  obtain ⟨screen, cursor, pen, saved⟩ := canvas
  have below : (⟨cursor.column, cursor.row + 1⟩ : Position).limited limit
      = (⟨cursor.column, cursor.row + 1⟩, none) := Position.limited_of_within room
  simp only [lineFeed, Count.add_eq_of_le counted, below]
  rfl

end Canvas

namespace Event

/-- The bytes that are not text: NUL, LF, CR, SUB and ESC. -/
def controls : List UInt8 := [0x00, 0x0A, 0x0D, 0x1A, 0x1B]

theorem ofByte_of_text {collector : Collector} (closed : collector.isOpen = false) {byte : UInt8}
    (text : byte ∉ controls) : ofByte collector byte = (collector, draw byte) := by
  simp only [controls, List.mem_cons, List.not_mem_nil, or_false, not_or] at text
  obtain ⟨notNul, notLineFeed, notReturn, notSub, notEscape⟩ := text
  have unstopped : isStop byte = false := by simp [isStop, notNul, notSub]
  simp [ofByte, unstopped, closed, notEscape, notReturn, notLineFeed]

end Event

open Layout

namespace Scan

/-- A byte that asks for something that can be done without a word. -/
theorem step_of_quiet {settings : Settings} {byte : UInt8} {scan : Scan width} {event : Event}
    {canvas : Canvas width} (asked : Event.ofByte scan.collector byte = (scan.collector, event))
    (continues : event.ending? settings.unhandled scan.offset = none)
    (performed : scan.canvas.perform settings.rowLimit event = (canvas, [])) :
    scan.step settings byte
      = ({ scan with canvas := canvas, offset := scan.offset + 1 }, none) := by
  rw [step_of_asked asked continues, performed, Journal.record_nil]

/-- A scan that has taken some finished lines, each with its line break, and the beginning of
    another line. -/
structure Typed (scan : Scan width) (journal : Journal) (finished : List (List UInt8))
    (current : List UInt8) : Prop where
  closed : scan.collector.isOpen = false
  journal : scan.journal = journal
  pen : scan.canvas.pen = {}
  cursor : scan.canvas.cursor
    = place width (firstRow width finished finished.length) current.length
  height : scan.canvas.screen.height = scan.canvas.cursor.row
  shows : Shows width (finished ++ [current]) scan.canvas.screen.seen

variable {settings : Settings} {scan : Scan width} {journal : Journal}
  {finished : List (List UInt8)} {current : List UInt8}

theorem typed_start (settings : Settings) (listening : Bool) :
    (start settings listening).Typed (.blank listening) [] [] where
  closed := rfl
  journal := rfl
  pen := rfl
  cursor := by simp [place, firstRow, start, Canvas.blank]
  height := rfl
  shows := by
    constructor
    · rintro spot byte ⟨number, line, index, isLine, isByte, rfl⟩
      obtain ⟨-, rfl⟩ : number = 0 ∧ line = [] := by cases number <;> simp_all
      cases isByte
    · intro spot _
      exact Screen.seen_blank spot

theorem Typed.draw (typed : scan.Typed journal finished current) (nonempty : 0 < width)
    {byte : UInt8} (text : byte ∉ Event.controls)
    (fits : Fits settings.rowLimit width
      (lastRow width (finished ++ [current ++ [byte]]) finished.length)) :
    ∃ next, scan.step settings byte = (next, none)
      ∧ next.Typed journal finished (current ++ [byte]) := by
  have counted : 1 ≤ firstRow width finished finished.length := one_le_firstRow _ _
  rw [lastRow_concat, List.length_append, List.length_singleton] at fits
  have onward : scan.canvas.cursor.next? width
      = some (place width (firstRow width finished finished.length) (current.length + 1)) := by
    rw [typed.cursor, next_place nonempty counted fits.counted fits.addressed]
  have positive : scan.canvas.cursor.Positive := by
    rw [typed.cursor]
    exact place_positive counted _
  have within : scan.canvas.cursor.column ≤ width := by
    rw [typed.cursor]
    exact place_column_le nonempty _ _
  refine ⟨_, step_of_quiet (Event.ofByte_of_text typed.closed text) rfl
    (Canvas.draw_of_within positive within onward fits.unlimited byte), ?_⟩
  refine ⟨typed.closed, typed.journal, typed.pen, ?_, ?_, ?_⟩
  · rw [List.length_append, List.length_singleton]
  · -- The place drawn at is not below the place that comes next.
    have below : scan.canvas.cursor.row
        ≤ (place width (firstRow width finished finished.length) (current.length + 1)).row := by
      rw [typed.cursor]
      exact Nat.add_le_add_left (Nat.div_le_div_right (Nat.le_succ _)) _
    rw [Screen.height_touch, Screen.height_write, typed.height, Nat.max_self]
    exact Nat.max_eq_right below
  · have pushed := typed.shows.push byte
    rw [← typed.cursor] at pushed
    have seen : (((scan.canvas.screen.write scan.canvas.cursor
        (.draw (Charset.glyph byte) scan.canvas.pen)).touch
          (place width (firstRow width finished finished.length) (current.length + 1)).row).seen)
        = fun spot => if spot = scan.canvas.cursor then .draw (Charset.glyph byte) {}
            else scan.canvas.screen.seen spot := by
      funext spot
      rw [Screen.seen_touch, Screen.seen_write _ positive within, typed.pen]
    rw [seen]
    exact pushed

/-- The line break finishes a line. -/
theorem Typed.lineBreak (typed : scan.Typed journal finished current)
    (fits : Fits settings.rowLimit width (firstRow width (finished ++ [current])
      (finished.length + 1))) :
    ∃ next, run settings [0x0D, 0x0A] scan = (next, .exhausted)
      ∧ next.Typed journal (finished ++ [current]) [] := by
  have below : scan.canvas.cursor.row + 1
      = firstRow width (finished ++ [current]) (finished.length + 1) := by
    rw [firstRow_succ, lastRow_concat, typed.cursor]
    rfl
  rw [← below] at fits
  -- In between, the cursor is back in the first column of the row that it was in.
  obtain ⟨collector, ⟨screen, cursor, pen, saved⟩, log, offset⟩ := scan
  have closed : collector.isOpen = false := typed.closed
  have returned (offset : Nat) :
      step settings 0x0D ⟨collector, ⟨screen, cursor, pen, saved⟩, log, offset⟩
        = (⟨collector, ⟨screen, cursor.carriageReturn, pen, saved⟩, log, offset + 1⟩, none) :=
    step_of_quiet (Event.ofByte_carriageReturn closed) rfl rfl
  have fed (offset : Nat) :
      step settings 0x0A ⟨collector, ⟨screen, cursor.carriageReturn, pen, saved⟩, log, offset⟩
        = (⟨collector, ⟨screen.touch (cursor.row + 1), ⟨1, cursor.row + 1⟩, pen, saved⟩, log,
            offset + 1⟩, none) :=
    step_of_quiet (Event.ofByte_lineFeed closed) rfl
      (@Canvas.lineFeed_of_within width ⟨screen, cursor.carriageReturn, pen, saved⟩ _
        fits.counted fits.unlimited)
  rw [run_cons_of_none (returned offset), run_cons_of_none (fed (offset + 1))]
  refine ⟨_, rfl, typed.closed, typed.journal, typed.pen, ?_, ?_, ?_⟩
  · rw [List.length_append, List.length_singleton, ← below]
    simp [place]
  · have high : screen.height = cursor.row := typed.height
    rw [Screen.height_touch, high]
    exact Nat.max_eq_right (Nat.le_succ _)
  · have seen : (screen.touch (cursor.row + 1)).seen = screen.seen :=
      funext fun spot => Screen.seen_touch _ _ spot
    have shows := typed.shows.concat_nil
    rw [← seen] at shows
    exact shows

/-- A line is written on, byte by byte. -/
theorem Typed.line (nonempty : 0 < width) {line : List UInt8}
    (text : ∀ byte ∈ line, byte ∉ Event.controls) (typed : scan.Typed journal finished current)
    (fits : Fits settings.rowLimit width
      (lastRow width (finished ++ [current ++ line]) finished.length)) :
    ∃ next, run settings line scan = (next, .exhausted)
      ∧ next.Typed journal finished (current ++ line) := by
  induction line generalizing scan current with
  | nil => exact ⟨scan, rfl, by rwa [List.append_nil]⟩
  | cons byte line ih =>
    rw [List.append_cons current] at fits ⊢
    -- A shorter line does not end further down.
    have shorter : Fits settings.rowLimit width
        (lastRow width (finished ++ [current ++ [byte]]) finished.length) := by
      refine fits.of_le ?_
      rw [lastRow_concat, lastRow_concat, @List.length_append _ (current ++ [byte]) line]
      exact Nat.add_le_add_left (Nat.div_le_div_right (Nat.le_add_right _ _)) _
    obtain ⟨next, stepped, drawn⟩ := typed.draw nonempty (text byte List.mem_cons_self) shorter
    rw [run_cons_of_none stepped]
    exact ih (fun other member => text other (List.mem_cons_of_mem _ member)) drawn fits

/-- Line after line, the page so far is followed by all of them. -/
theorem Typed.lines (nonempty : 0 < width) {lines : List (List UInt8)} {last : List UInt8}
    (text : ∀ line ∈ lines ++ [last], ∀ byte ∈ line, byte ∉ Event.controls)
    (typed : scan.Typed journal finished [])
    (fits : Fits settings.rowLimit width
      (lastRow width (finished ++ lines ++ [last]) (finished ++ lines).length)) :
    ∃ next, run settings (lines.flatMap (· ++ [0x0D, 0x0A]) ++ last) scan = (next, .exhausted)
      ∧ next.Typed journal (finished ++ lines) last := by
  induction lines generalizing scan finished with
  | nil =>
    rw [List.append_nil] at fits ⊢
    exact typed.line nonempty (text last List.mem_cons_self) fits
  | cons line lines ih =>
    rw [List.append_cons finished] at fits ⊢
    have within : finished.length < (finished ++ [line]).length := by simp
    -- Neither this line nor its line break leads further down than the last line ends.
    have ends : lastRow width (finished ++ [line]) finished.length
        ≤ firstRow width (finished ++ [line]) (finished.length + 1) := Nat.le_succ _
    have breaks : firstRow width (finished ++ [line]) (finished.length + 1)
        ≤ lastRow width (finished ++ [line] ++ lines ++ [last])
            (finished ++ [line] ++ lines).length := by
      rw [← firstRow_append (finished ++ [line]) (lines ++ [last]) within, ← List.append_assoc]
      exact firstRow_succ_le _ (by simp)
    obtain ⟨middle, written, typedLine⟩ := typed.line nonempty
      (text line List.mem_cons_self) (fits.of_le (Nat.le_trans ends breaks))
    obtain ⟨below, broken, typedBreak⟩ := typedLine.lineBreak (fits.of_le breaks)
    rw [List.flatMap_cons, List.append_assoc, List.append_assoc, run_append written,
      run_append broken]
    exact ih (fun other member => text other (List.mem_cons_of_mem _ member)) typedBreak fits

/-! ## The page at the end -/

theorem Typed.height_eq (typed : scan.Typed journal finished current) :
    scan.canvas.screen.height
      = lastRow width (finished ++ [current]) ((finished ++ [current]).length - 1) := by
  rw [List.length_append, List.length_singleton, Nat.add_sub_cancel, typed.height, typed.cursor,
    lastRow_concat]
  rfl

theorem Typed.cell?_of_puts (typed : scan.Typed journal finished current) (nonempty : 0 < width)
    {spot : Position} {byte : UInt8} (puts : Puts width (finished ++ [current]) spot byte) :
    scan.canvas.screen.cell? spot
      = some ⟨if Charset.glyph byte = ' ' then none else some (Charset.glyph byte), {}⟩ := by
  have low := puts.row_le
  rw [← typed.height_eq] at low
  rw [Screen.cell?_eq_seen,
    if_pos ⟨puts.positive.row, low, puts.positive.column, puts.column_le nonempty⟩,
    typed.shows.drawn spot byte puts, Cell.draw]

theorem Typed.eq_blank (typed : scan.Typed journal finished current) {spot : Position}
    {cell : Cell} (found : scan.canvas.screen.cell? spot = some cell)
    (empty : ∀ byte, ¬ Puts width (finished ++ [current]) spot byte) : cell = .blank := by
  obtain ⟨-, rfl⟩ := Screen.seen_of_cell? found
  exact typed.shows.blank spot empty

end Scan

/-- Joined lines are finished lines and a last one. -/
theorem Layout.intercalate_concat (separator last : List UInt8) (lines : List (List UInt8)) :
    separator.intercalate (lines ++ [last]) = lines.flatMap (· ++ separator) ++ last := by
  induction lines with
  | nil => simp
  | cons line lines ih =>
    rw [List.cons_append, List.intercalate_cons_of_ne_nil (by simp), ih, List.flatMap_cons,
      List.append_assoc (line ++ separator)]

namespace Converter

/-- A document that is scanned to its end without a word is converted without a word. -/
theorem convert_of_quiet_run {converter : Converter} {bytes : List UInt8} {listening : Bool}
    {scan : Scan converter.settings.width}
    (exhausted : Scan.run converter.settings bytes (Scan.start converter.settings listening)
      = (scan, .exhausted)) (quiet : scan.journal = .blank listening) {outlet : Outlet}
    (roomy : outlet.room = none) :
    (converter.convert ⟨bytes, none⟩ outlet listening).result
        = .ok ⟨bytes.length, scan.canvas.screen.height, 0⟩
      ∧ (converter.convert ⟨bytes, none⟩ outlet listening).notices = #[] := by
  have ended : converter.convert ⟨bytes, none⟩ outlet listening
      = .ofScan converter.settings.renderOptions outlet scan none :=
    converter.convert_of_run exhausted none outlet
  rw [ended]
  constructor
  · rcases Outcome.result_ofScan_none converter.settings.renderOptions outlet scan with
      written | ⟨room, limited, -⟩
    · rw [written, Scan.offset_of_exhausted_start exhausted, quiet]
      rfl
    · rw [roomy] at limited
      cases limited
  · rw [Outcome.notices_ofScan, quiet]
    cases listening <;> rfl

/-- Plain text is laid out line by line.  Where the lines are not interrupted by controls and there
    is room for their rows, the conversion succeeds and there is nothing to say about it.  Each byte
    is drawn with the default pen in the row and the column to which its line reaches before it, a
    space leaving no mark, and every other cell is blank.  The rows are those down to the end of
    the last line.  So a line that fills its rows to the edge is followed by an empty row. -/
theorem convert_lays_out_lines (converter : Converter) (listening : Bool) {outlet : Outlet}
    (roomy : outlet.room = none) {lines : List (List UInt8)} (nonempty : lines ≠ [])
    (text : ∀ line ∈ lines, ∀ byte ∈ line, byte ∉ Event.controls)
    (fits : Fits converter.settings.rowLimit converter.settings.width
      (lastRow converter.settings.width lines (lines.length - 1))) :
    let width := converter.settings.width
    let rows := lastRow width lines (lines.length - 1)
    let document : List UInt8 := [0x0D, 0x0A].intercalate lines
    let outcome := converter.convert ⟨document, none⟩ outlet listening
    let screen := (converter.scan ⟨document, none⟩ listening).1.canvas.screen
    outcome.result = .ok ⟨document.length, rows, 0⟩
      ∧ outcome.notices = #[]
      ∧ screen.height = rows
      ∧ (∀ number bytes index byte, lines[number]? = some bytes → bytes[index]? = some byte →
          screen.cell? ⟨index % width + 1, firstRow width lines number + index / width⟩
            = some ⟨if Charset.glyph byte = ' ' then none else some (Charset.glyph byte), {}⟩)
      ∧ (∀ spot cell, screen.cell? spot = some cell →
          (∀ number bytes index, lines[number]? = some bytes → index < bytes.length →
            spot ≠ ⟨index % width + 1, firstRow width lines number + index / width⟩) →
          cell = .blank)
      ∧ ∀ number bytes full, lines[number]? = some bytes → bytes.length = full * width →
          firstRow width lines number + full ≤ rows
            ∧ ∀ column cell,
                screen.cell? ⟨column, firstRow width lines number + full⟩ = some cell →
                cell = .blank := by
  intro width rows document outcome screen
  obtain ⟨finished, last, rfl⟩ : ∃ finished last, lines = finished ++ [last] :=
    ⟨_, _, (List.dropLast_concat_getLast nonempty).symm⟩
  have number : (finished ++ [last]).length - 1 = finished.length := by simp
  rw [number] at fits
  obtain ⟨final, exhausted, typed⟩ := (Scan.typed_start converter.settings listening).lines
    converter.width_pos text fits
  rw [List.nil_append] at typed
  -- Joined lines are read as finished ones and the last.
  rw [← intercalate_concat] at exhausted
  have shown : screen = final.canvas.screen :=
    congrArg (·.1.canvas.screen) (scan_of_run exhausted none)
  have height : final.canvas.screen.height = rows := typed.height_eq
  obtain ⟨succeeds, silent⟩ := convert_of_quiet_run exhausted typed.journal roomy
  rw [height] at succeeds
  rw [shown]
  refine ⟨succeeds, silent, height, ?_, ?_, ?_⟩
  · intro lineNumber bytes index byte isLine isByte
    exact typed.cell?_of_puts converter.width_pos ⟨lineNumber, bytes, index, isLine, isByte, rfl⟩
  · intro spot cell found apart
    refine typed.eq_blank found ?_
    rintro byte ⟨lineNumber, bytes, index, isLine, isByte, same⟩
    obtain ⟨within, -⟩ := List.getElem?_eq_some_iff.mp isByte
    exact apart lineNumber bytes index isLine within same
  · intro lineNumber bytes full isLine edge
    obtain ⟨isNumber, -⟩ := List.getElem?_eq_some_iff.mp isLine
    have ends := lastRow_of_full converter.width_pos isLine edge
    constructor
    · rw [← ends]
      exact lastRow_le _ (Nat.le_sub_one_of_lt isNumber)
    · intro column cell found
      exact typed.eq_blank found fun byte puts =>
        row_ne_of_full converter.width_pos isLine edge puts rfl

/-- On two columns the line AB fills its row and leaves an empty one before C. -/
theorem convert_lays_out_full_line :
    (convert ⟨{ width := 2 }, by decide⟩ ⟨[0x41, 0x42, 0x0D, 0x0A, 0x43], none⟩ {} true).result
        = .ok ⟨5, 3, 0⟩
      ∧ (scan ⟨{ width := 2 }, by decide⟩ ⟨[0x41, 0x42, 0x0D, 0x0A, 0x43], none⟩
          true).1.canvas.screen.cell? ⟨2, 1⟩ = some ⟨some 'B', {}⟩
      ∧ (∀ column cell, (scan ⟨{ width := 2 }, by decide⟩ ⟨[0x41, 0x42, 0x0D, 0x0A, 0x43], none⟩
          true).1.canvas.screen.cell? ⟨column, 2⟩ = some cell → cell = .blank)
      ∧ (scan ⟨{ width := 2 }, by decide⟩ ⟨[0x41, 0x42, 0x0D, 0x0A, 0x43], none⟩
          true).1.canvas.screen.cell? ⟨1, 3⟩ = some ⟨some 'C', {}⟩ := by
  obtain ⟨result, -, -, drawn, -, full⟩ :=
    @convert_lays_out_lines ⟨{ width := 2 }, by decide⟩ true {} rfl [[0x41, 0x42], [0x43]]
      (by decide) (by simp [Event.controls]) ⟨by decide, by decide, by decide⟩
  exact ⟨result, drawn 0 _ 1 _ rfl rfl, (full 0 _ 1 rfl rfl).2, drawn 1 _ 0 _ rfl rfl⟩

end Converter

end AnsiCanvas
