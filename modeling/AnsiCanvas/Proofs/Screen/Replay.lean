import AnsiCanvas.Proofs.Pen.Display
import AnsiCanvas.Proofs.Pen.ReadBack
import AnsiCanvas.Proofs.Screen.Pieces

/-! # What a terminal shows of a row

The text of a row names no attribute of a cell outright, it only tells how each pen
differs from the one before.  Replaying the text with the same collector and the same
pens that read documents shows every cell with its glyph and the pen displayed for its own,
up to where the budget cuts the row.

The induction is on the cells.  What ties the steps together is that the replaying pen
has the appearance of the last pen written, and that the collector is closed between
pieces.
-/

namespace AnsiCanvas

/-- Why a text cannot be replayed. -/
inductive ReplayFault
  | rejected (error : EscapeError)
  | rendition (error : RenditionError)
  | foreign (command : Command)
  /-- The text ends within an escape. -/
  | unfinished
  deriving DecidableEq, Repr

/-- What a terminal shows for a text: the characters outside of escapes, each with the
    pen at that point. -/
def replay (collector : Collector) (pen : Pen) :
    List Char → Except ReplayFault (List (Char × Pen))
  | [] => if collector.isOpen then .error .unfinished else .ok []
  | character :: rest =>
    if collector.isOpen then
      match collector.feedAll (String.utf8EncodeChar character) with
      | (collector, none) => replay collector pen rest
      | (collector, some (.ok (.rendition codes))) =>
        match pen.merge codes with
        | (pen, none) => replay collector pen rest
        | (_, some error) => .error (.rendition error)
      | (_, some (.ok command)) => .error (.foreign command)
      | (_, some (.error error)) => .error (.rejected error)
    else if character = '\x1b' then
      replay collector.begin pen rest
    else
      (replay collector pen rest).map ((character, pen) :: ·)

/-! ## Escapes -/

theorem replay_of_open {collector next : Collector} (opened : collector.isOpen = true)
    {text : List Char} (silent : collector.feedAll (Text.Utf8.encode text) = (next, none))
    (pen : Pen) (rest : List Char) :
    replay collector pen (text ++ rest) = replay next pen rest := by
  induction text generalizing collector with
  | nil =>
    obtain rfl : collector = next := by simpa [Collector.feedAll] using silent
    rfl
  | cons character text ih =>
    rw [Text.Utf8.encode_cons, Collector.feedAll_append] at silent
    rw [List.cons_append, replay, if_pos opened]
    have kept := collector.isOpen_feedAll (String.utf8EncodeChar character)
    cases fed : collector.feedAll (String.utf8EncodeChar character) with
    | mk middle answer =>
      rw [fed] at kept silent
      -- An answer here would end the escape before its text does.
      cases answer with
      | none => exact ih (by simpa [opened] using kept) silent
      | some _ => simp at silent

/-- The escape that spells changes makes them, and shows nothing. -/
theorem replay_spell {collector : Collector} (closed : collector.isOpen = false)
    {options : EscapeOptions} (sent : options.visible = false) (changes : List Change)
    (pen : Pen) (rest : List Char) :
    replay collector pen ((Pen.spell options changes).toList ++ rest)
      = replay collector (pen.follow changes) rest := by
  -- Without changes nothing is written at all, not even an empty escape.
  by_cases none : changes = []
  · rw [none, Pen.spell_nil, String.toList_empty, List.nil_append, Pen.follow_nil]
  · obtain ⟨opened, isOpen, collected⟩ : ∃ opened : Collector, opened.isOpen = true
        ∧ collector.begin.feedAll
            (Text.Utf8.encode (Command.controlText (changes.flatMap Change.codes)))
          = (opened, .none) :=
      ⟨_, rfl, collector.begin_feedAll_controlText _⟩
    have answered := Pen.read_spelled collector none
    rw [Collector.read, Collector.feedAll_append, collected] at answered
    have letter : String.utf8EncodeChar 'm' = [0x6D] := by decide
    rw [Pen.toList_spell sent none, List.cons_append, replay, if_neg (by simp [closed]), if_pos rfl,
      List.append_assoc, replay_of_open rfl collected, List.singleton_append, replay,
      if_pos isOpen, letter]
    simp only [answered, Pen.merge_flatMap_codes, Collector.reset_of_closed closed]

/-! ## Cells -/

/-- The pen that a terminal has before a cell is written. -/
def Pen.appearanceBefore (before : Option Pen) (downsample : Bool) : Pen :=
  match before with
  | none => .plain
  | some before => before.appearance downsample

theorem Pen.follow_changes_before (pen : Pen) (before : Option Pen) (downsample : Bool) :
    (appearanceBefore before downsample).follow (pen.changes before downsample)
      = pen.appearance downsample := by
  cases before with
  | none => exact follow_changes_none pen downsample
  | some before => exact follow_changes pen before downsample

theorem replay_escape {collector : Collector} (closed : collector.isOpen = false)
    {options : EscapeOptions} (sent : options.visible = false) (pen : Pen) (before : Option Pen)
    (rest : List Char) :
    replay collector (Pen.appearanceBefore before options.downsample)
        ((pen.escape before options).toList ++ rest)
      = replay collector (pen.appearance options.downsample) rest := by
  rw [Pen.escape_eq_spell, replay_spell closed sent, Pen.follow_changes_before]

/-- A cell as a terminal shows it. -/
def Cell.appearance (cell : Cell) (downsample : Bool) : Char × Pen :=
  (cell.glyph, cell.pen.appearance downsample)

/-- A cell as it is displayed: its glyph, and the pen displayed for its own. -/
def Cell.displayed (cell : Cell) (imitated : Bool) : Char × Pen :=
  (cell.glyph, cell.pen.displayed imitated)

theorem Cell.appearance_eq_displayed : appearance = displayed := by
  funext cell imitated
  rw [appearance, Pen.appearance_eq_displayed, displayed]

/-- A beginning of the pieces shows every cell whose glyph it holds. -/
theorem replay_pieces {collector : Collector} (closed : collector.isOpen = false)
    {options : EscapeOptions} (sent : options.visible = false) {cells : List Cell}
    (legible : ∀ cell ∈ cells, cell.glyph ≠ '\x1b') (before : Option Pen) {part : List String}
    (within : part <+: Row.pieces options before cells) :
    replay collector (Pen.appearanceBefore before options.downsample) (String.join part).toList
      = .ok ((cells.map (·.appearance options.downsample)).take (part.length / 2)) := by
  induction cells generalizing before part with
  | nil =>
    obtain rfl : part = [] := List.prefix_nil.mp within
    simp [replay, closed]
  | cons cell cells ih =>
    rcases part with _ | ⟨escape, _ | ⟨glyph, part⟩⟩
    · simp [replay, closed]
    · -- The row is cut between the escape and its glyph, so the escape is in vain.
      rw [Row.pieces, List.cons_prefix_cons] at within
      obtain ⟨rfl, -⟩ := within
      have escaped := replay_escape closed sent cell.pen before []
      rw [List.append_nil] at escaped
      simpa [replay, closed] using escaped
    · rw [Row.pieces, List.cons_prefix_cons, List.cons_prefix_cons] at within
      obtain ⟨rfl, rfl, within⟩ := within
      have rest := ih (fun other member => legible other (List.mem_cons_of_mem _ member))
        (some cell.pen) within
      have visible := legible cell List.mem_cons_self
      have length : (part.length + 1 + 1) / 2 = part.length / 2 + 1 := by omega
      rw [String.join_cons, String.toList_append, replay_escape closed sent, String.join_cons,
        String.toList_append, show cell.glyph.toString.toList = [cell.glyph] from by simp,
        List.singleton_append, replay, if_neg (by simp [closed]), if_neg visible]
      rw [Pen.appearanceBefore] at rest
      rw [rest, List.length_cons, List.length_cons, length]
      rfl

/-! ## Rows -/

variable {width : Nat}

theorem replay_content {collector : Collector} (closed : collector.isOpen = false)
    {options : RenderOptions} (sent : options.escapes.visible = false) {row : Row width}
    (legible : ∀ cell ∈ row.cells.toList, cell.glyph ≠ '\x1b') :
    ∃ shown, replay collector .plain (row.content options none).toList = .ok shown
      ∧ shown <+: row.cells.toList.map (·.appearance options.escapes.downsample)
      ∧ (options.rowBudget = 0 →
          shown = row.cells.toList.map (·.appearance options.escapes.downsample)) := by
  have within := Row.fitting_prefix options 0 (Row.pieces options.escapes none row.cells.toList)
  refine ⟨_, replay_pieces closed sent legible none within, List.take_prefix _ _, ?_⟩
  intro unlimited
  rw [Row.fitting_of_unlimited unlimited, Row.length_pieces, List.take_of_length_le]
  rw [List.length_map]
  omega

/-- A rendered screen shows its cells.  When every row starts anew and escapes are sent,
    the output is the framed contents of the rows in order.  Replaying the content of a
    row, whatever was read before, meets no fault and shows the cells of the row from the
    left, each with its glyph and the pen displayed for its own, and all of them if the
    budget is unlimited. -/
theorem writeTo_shows_cells (options : RenderOptions) (screen : Screen width) (strict : Bool)
    (resets : options.baseline = .resetPerRow) (sent : options.escapes.visible = false)
    (legible : ∀ row ∈ screen.rows, ∀ cell ∈ row.cells.toList, cell.glyph ≠ '\x1b') :
    screen.writeTo options
        = Outlet.write (String.join
            ((screen.rows.toList.map (·.content options none)).mapIdx fun index content =>
              Row.framed options (index + 1) content))
      ∧ ∀ row ∈ screen.rows,
          ∃ shown, replay { strict } .plain (row.content options none).toList = .ok shown
            ∧ shown <+: row.cells.toList.map (·.displayed options.escapes.downsample)
            ∧ (options.rowBudget = 0 →
                shown = row.cells.toList.map (·.displayed options.escapes.downsample)) := by
  constructor
  · rw [Screen.writeTo_eq, Screen.contents_of_resetPerRow resets]
  · intro row member
    rw [← Cell.appearance_eq_displayed]
    exact replay_content rfl sent (legible row member)

/-- A bold color is imitated by the bright one, and so is one beyond the sixteenth. -/
theorem writeTo_shows_two_cells :
    (⟨#[⟨#v[.draw 'A' ⟨⟨1⟩, .classic 3, .unset⟩, .draw 'B' ⟨⟨2⟩, .classic 17, .classic 7⟩]⟩]⟩
        : Screen 2).writeTo { numberRows := true, escapes := { downsample := true } }
      = Outlet.write ("\x1b[0m    1: "
          ++ "\x1b[1;38;5;227;48;5;16mA\x1b[22;2;38;5;203;48;5;248mB" ++ "\x1b[0m|\n")
      ∧ replay {} .plain "\x1b[1;38;5;227;48;5;16mA\x1b[22;2;38;5;203;48;5;248mB".toList
        = .ok [('A', ⟨⟨1⟩, .palette 227, .palette 16⟩),
            ('B', ⟨⟨2⟩, .palette 203, .palette 248⟩)] := by
  obtain ⟨written, shows⟩ := writeTo_shows_cells
    { numberRows := true, escapes := { downsample := true } }
    (⟨#[⟨#v[.draw 'A' ⟨⟨1⟩, .classic 3, .unset⟩, .draw 'B' ⟨⟨2⟩, .classic 17, .classic 7⟩]⟩]⟩
      : Screen 2) false rfl rfl (by decide)
  obtain ⟨shown, replayed, -, all⟩ := shows _ (Array.mem_singleton.mpr rfl)
  have content : Row.content { numberRows := true, escapes := { downsample := true } }
      (⟨#v[.draw 'A' ⟨⟨1⟩, .classic 3, .unset⟩, .draw 'B' ⟨⟨2⟩, .classic 17, .classic 7⟩]⟩ : Row 2)
      none = "\x1b[1;38;5;227;48;5;16mA\x1b[22;2;38;5;203;48;5;248mB" := by
    decide
  rw [content, all rfl] at replayed
  exact ⟨by rw [written]; exact congrArg Outlet.write (by decide),
    replayed.trans (congrArg Except.ok (by decide))⟩

end AnsiCanvas
