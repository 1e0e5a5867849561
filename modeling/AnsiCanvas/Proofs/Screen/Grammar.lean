import AnsiCanvas.Charset
import AnsiCanvas.Proofs.Pen.ReadBack
import AnsiCanvas.Proofs.Screen.Pieces

/-! # The grammar of the output

A row in its frame is made of characters of the code page and of escapes that select
graphic renditions, whole and with proper codes, and ends with the only newline in it.
None of the characters is a control character, so a terminal that receives the output is
told to do nothing but to change its attributes and to begin a new row.

`Harmless` says this of a text without regard to how it came about.  It is kept when texts
are joined, because every escape is complete within its own part.
-/

namespace AnsiCanvas

/-! ## Harmless texts -/

/-- A control character: one of C0, the delete character, or one of C1. -/
def Text.IsControl (c : Char) : Prop := c.toNat < 0x20 ∨ 0x7F ≤ c.toNat ∧ c.toNat ≤ 0x9F

instance (c : Char) : Decidable (Text.IsControl c) :=
  inferInstanceAs (Decidable (c.toNat < 0x20 ∨ 0x7F ≤ c.toNat ∧ c.toNat ≤ 0x9F))

/-- Codes of a graphic rendition: at least one, and each a byte. -/
structure Command.ProperCodes (codes : List Nat) : Prop where
  nonempty : codes ≠ []
  bytes : ∀ code ∈ codes, code ≤ 255

/-- A text whose only control characters are newlines and escape characters, each of the
    latter with a whole graphic rendition after it. -/
structure Text.Harmless (text : List Char) : Prop where
  controls : ∀ c ∈ text, IsControl c → c = '\n' ∨ c = '\x1b'
  escapes : ∀ before after, text = before ++ '\x1b' :: after →
    ∃ codes rest, Command.ProperCodes codes ∧ after = Command.controlText codes ++ 'm' :: rest

namespace Text

theorem harmless_of_not_isControl {text : List Char} (plain : ∀ c ∈ text, ¬ IsControl c) :
    Harmless text where
  controls c member control := absurd control (plain c member)
  escapes before after equal := by
    have member : '\x1b' ∈ text := by simp [equal]
    exact absurd (by decide) (plain _ member)

theorem Harmless.append {first second : List Char} (left : Harmless first)
    (right : Harmless second) : Harmless (first ++ second) where
  controls c member := by
    rcases List.mem_append.mp member with member | member
    · exact left.controls c member
    · exact right.controls c member
  escapes before after equal := by
    rcases List.append_eq_append_iff.mp equal with ⟨more, -, inSecond⟩ | ⟨more, inFirst, following⟩
    · exact right.escapes more after inSecond
    · cases more with
      | nil => exact right.escapes [] after following.symm
      | cons c more =>
        -- The escape that begins in the first text is complete there.
        rw [List.cons_append, List.cons.injEq] at following
        obtain ⟨rfl, rfl⟩ := following
        obtain ⟨codes, rest, proper, whole⟩ := left.escapes before more inFirst
        exact ⟨codes, rest ++ second, proper, by simp [whole]⟩

theorem harmless_nil : Harmless [] := harmless_of_not_isControl fun _ member => nomatch member

theorem harmless_newline : Harmless ['\n'] where
  controls c member _ := .inl (List.mem_singleton.mp member)
  escapes before after equal := by
    have member : '\x1b' ∈ ['\n'] := by simp [equal]
    exact absurd member (by decide)

theorem not_isControl_of_isDigit {c : Char} (digit : c.isDigit) : ¬ IsControl c := by
  have bounds : 48 ≤ c.toNat ∧ c.toNat ≤ 57 := Char.isDigit_iff_toNat.mp digit
  rintro (control | ⟨control, -⟩) <;> omega

/-- What follows the escape character is printable. -/
theorem not_isControl_of_mem_rendition {codes : List Nat} {c : Char}
    (member : c ∈ Command.controlText codes ++ ['m']) : ¬ IsControl c := by
  rcases List.mem_append.mp member with member | member
  · rcases List.mem_cons.mp member with rfl | member
    · decide
    · rcases Command.mem_parameterText member with digit | rfl
      · exact not_isControl_of_isDigit digit
      · decide
  · obtain rfl := List.mem_singleton.mp member
    decide

/-- A graphic rendition with proper codes. -/
theorem harmless_rendition {codes : List Nat} (proper : Command.ProperCodes codes) :
    Harmless ('\x1b' :: (Command.controlText codes ++ ['m'])) := by
  refine ⟨fun c member control => ?_, fun before after equal => ?_⟩
  · rcases List.mem_cons.mp member with rfl | member
    · exact .inr rfl
    · exact absurd control (not_isControl_of_mem_rendition member)
  · cases before with
    | nil =>
      obtain rfl := (List.cons.inj equal).2
      exact ⟨codes, [], proper, rfl⟩
    | cons c before =>
      -- There is no second escape character.
      have member : '\x1b' ∈ Command.controlText codes ++ ['m'] := by
        simp [(List.cons.inj equal).2]
      exact absurd (by decide) (not_isControl_of_mem_rendition member)

end Text

/-! ## Pieces -/

theorem Charset.not_isControl_glyph (byte : UInt8) : ¬ Text.IsControl (glyph byte) := by
  have all : ∀ value < 256, ¬ Text.IsControl (glyph (UInt8.ofNat value)) := by decide +kernel
  rw [← UInt8.ofNat_toNat (x := byte)]
  exact all byte.toNat byte.toNat_lt

/-- What the content of a row is made of: characters of the code page and escapes. -/
inductive Piece
  | glyph (byte : UInt8)
  | escape (codes : List Nat) (proper : Command.ProperCodes codes)

namespace Piece

/-- The text of a piece.  An escape is sent, or shown with a highlighted picture of the escape
    character. -/
def text (options : EscapeOptions) : Piece → String
  | glyph byte => (Charset.glyph byte).toString
  | escape codes _ =>
    (if options.visible then "\x1b[96m^[\x1b[0m[" else "\x1b[")
      ++ ";".intercalate (codes.map Nat.repr) ++ "m"

/-- The text that pieces make up. -/
def join (options : EscapeOptions) (pieces : List Piece) : String :=
  String.join (pieces.map (text options))

theorem toList_text_escape (options : EscapeOptions) {codes : List Nat}
    (proper : Command.ProperCodes codes) :
    ((escape codes proper).text options).toList
      = options.opening.toList ++ Command.parameterText codes ++ ['m'] := by
  have opening : (if options.visible then "\x1b[96m^[\x1b[0m[" else "\x1b[")
      = options.opening := rfl
  rw [text, opening, String.toList_append, String.toList_append, Pen.toList_intercalate_repr]
  rfl

theorem harmless_resetEscape : Text.Harmless resetEscape.toList := by
  have reset : resetEscape.toList = '\x1b' :: (Command.controlText [0] ++ ['m']) := by decide
  rw [reset]
  exact Text.harmless_rendition ⟨List.cons_ne_nil 0 [], by simp⟩

/-- Every piece is harmless, and so is the picture of an escape. -/
theorem harmless_text (options : EscapeOptions) (piece : Piece) :
    Text.Harmless (piece.text options).toList := by
  cases piece with
  | glyph byte =>
    apply Text.harmless_of_not_isControl
    intro c member
    obtain rfl : c = Charset.glyph byte := by simpa [text] using member
    exact Charset.not_isControl_glyph byte
  | escape codes proper =>
    rw [toList_text_escape]
    cases shown : options.visible with
    | false =>
      simpa [EscapeOptions.opening, shown, Command.controlText] using
        Text.harmless_rendition proper
    | true =>
      have opening : options.opening.toList = '\x1b' :: (Command.controlText [96] ++ ['m'])
          ++ ['^', '['] ++ resetEscape.toList ++ ['['] := by
        rw [EscapeOptions.opening, if_pos shown]
        decide
      have highlight : Text.Harmless ('\x1b' :: (Command.controlText [96] ++ ['m'])) :=
        Text.harmless_rendition ⟨List.cons_ne_nil 96 [], by simp⟩
      have caret : Text.Harmless ['^', '['] := Text.harmless_of_not_isControl (by simp [Text.IsControl])
      have shownAs : Text.Harmless (Command.controlText codes ++ ['m']) :=
        Text.harmless_of_not_isControl fun _ => Text.not_isControl_of_mem_rendition
      have parts := ((highlight.append caret).append harmless_resetEscape).append shownAs
      rw [opening]
      simpa only [Command.controlText, List.append_assoc, List.singleton_append] using parts

theorem newline_not_mem_text (options : EscapeOptions) (piece : Piece) :
    '\n' ∉ (piece.text options).toList := by
  cases piece with
  | glyph byte =>
    intro member
    obtain equal : '\n' = Charset.glyph byte := by simpa [text] using member
    exact Charset.not_isControl_glyph byte (equal ▸ by decide)
  | escape codes proper =>
    have opening : '\n' ∉ options.opening.toList := by
      rw [EscapeOptions.opening]
      split <;> decide
    rw [toList_text_escape, List.append_assoc, List.mem_append]
    rintro (member | member)
    · exact opening member
    · exact Text.not_isControl_of_mem_rendition (List.mem_cons_of_mem '[' member) (by decide)

@[simp] theorem join_append (options : EscapeOptions) (first second : List Piece) :
    join options (first ++ second) = join options first ++ join options second := by
  simp [join, String.join_append]

theorem join_cons (options : EscapeOptions) (piece : Piece) (pieces : List Piece) :
    join options (piece :: pieces) = piece.text options ++ join options pieces := by
  rw [join, List.map_cons, String.join_cons, join]

theorem harmless_join (options : EscapeOptions) (pieces : List Piece) :
    Text.Harmless (join options pieces).toList := by
  induction pieces with
  | nil => exact Text.harmless_nil
  | cons piece pieces ih =>
    rw [join_cons, String.toList_append]
    exact (harmless_text options piece).append ih

theorem newline_not_mem_join (options : EscapeOptions) (pieces : List Piece) :
    '\n' ∉ (join options pieces).toList := by
  induction pieces with
  | nil => exact List.not_mem_nil
  | cons piece pieces ih =>
    rw [join_cons, String.toList_append, List.mem_append]
    exact not_or.mpr ⟨newline_not_mem_text options piece, ih⟩

/-- The escape that spells changes is one piece, or none if there is nothing to change. -/
theorem exists_join_eq_spell (options : EscapeOptions) (changes : List Change) :
    ∃ pieces, join options pieces = Pen.spell options changes := by
  have bytes : ∀ code ∈ changes.flatMap Change.codes, code ≤ 255 := by
    intro code member
    obtain ⟨change, -, member⟩ := List.mem_flatMap.mp member
    exact Nat.le_of_lt_succ (Change.lt_of_mem_codes member)
  rw [Pen.spell]
  cases codes : changes.flatMap Change.codes with
  | nil => exact ⟨[], rfl⟩
  | cons code rest =>
    rw [codes] at bytes
    exact ⟨[.escape (code :: rest) ⟨List.cons_ne_nil _ _, bytes⟩],
      by simp [join, text, EscapeOptions.opening]⟩

/-- Every text of a list is made of pieces, and so are all of them together. -/
theorem exists_join_eq_join {options : EscapeOptions} {texts : List String}
    (each : ∀ text ∈ texts, ∃ pieces, join options pieces = text) :
    ∃ pieces, join options pieces = String.join texts := by
  induction texts with
  | nil => exact ⟨[], rfl⟩
  | cons text texts ih =>
    obtain ⟨first, rfl⟩ := each text List.mem_cons_self
    obtain ⟨rest, joined⟩ := ih fun other member => each other (List.mem_cons_of_mem _ member)
    exact ⟨first ++ rest, by rw [join_append, joined, String.join_cons]⟩

end Piece

/-! ## Rows -/

/-- A cell whose glyph is a character of the code page. -/
def Cell.FromCodePage (cell : Cell) : Prop := ∃ byte, cell.glyph = Charset.glyph byte

namespace Row

variable {width : Nat}

theorem exists_join_of_mem_pieces {options : EscapeOptions} {cells : List Cell}
    (drawn : ∀ cell ∈ cells, cell.FromCodePage) {before : Option Pen} {text : String}
    (member : text ∈ pieces options before cells) :
    ∃ pieces, Piece.join options pieces = text := by
  induction cells generalizing before with
  | nil => simp [pieces] at member
  | cons cell cells ih =>
    rw [pieces, List.mem_cons, List.mem_cons] at member
    rcases member with rfl | rfl | member
    · rw [Pen.escape_eq_spell]
      exact Piece.exists_join_eq_spell options _
    · obtain ⟨byte, drawn⟩ := drawn cell List.mem_cons_self
      exact ⟨[.glyph byte], by simp [Piece.join, Piece.text, drawn]⟩
    · exact ih (fun other member => drawn other (List.mem_cons_of_mem _ member)) member

/-- The content of a row is made of pieces, wherever the budget cuts it. -/
theorem exists_join_eq_content (options : RenderOptions) {row : Row width}
    (drawn : ∀ cell ∈ row.cells.toList, cell.FromCodePage) (before : Option Pen) :
    ∃ pieces, Piece.join options.escapes pieces = row.content options before := by
  apply Piece.exists_join_eq_join
  intro text member
  have within := fitting_prefix options 0 (pieces options.escapes before row.cells.toList)
  exact exists_join_of_mem_pieces drawn (within.subset member)

theorem not_isControl_of_mem_label {number : Nat} {c : Char}
    (member : c ∈ (label number).toList) : ¬ Text.IsControl c := by
  rw [toList_label, List.leftpad, List.mem_append, List.mem_append] at member
  rcases member with (padding | digit) | colon
  · obtain rfl := List.eq_of_mem_replicate padding
    decide
  · exact Text.not_isControl_of_isDigit (Parameter.isDigit_of_mem_toDigits digit)
  · have plain : ∀ c ∈ [':', ' '], ¬ Text.IsControl c := by simp [Text.IsControl]
    exact plain c colon

theorem harmless_label (options : RenderOptions) (number : Nat) :
    Text.Harmless (if options.numberRows then label number else "").toList := by
  split
  · exact Text.harmless_of_not_isControl fun _ => not_isControl_of_mem_label
  · exact Text.harmless_nil

theorem harmless_bar (options : RenderOptions) :
    Text.Harmless (if options.numberRows then "|" else "").toList := by
  split
  · exact Text.harmless_of_not_isControl (by simp [Text.IsControl])
  · exact Text.harmless_nil

/-- A row in its frame is harmless. -/
theorem harmless_framed (options : RenderOptions) (number : Nat) {content : String}
    (harmless : Text.Harmless content.toList) :
    Text.Harmless (framed options number content).toList := by
  simp only [framed_eq, String.toList_append]
  exact ((((Piece.harmless_resetEscape.append (harmless_label options number)).append
    harmless).append Piece.harmless_resetEscape).append (harmless_bar options)).append
      Text.harmless_newline

/-- A row in its frame has one newline, if it has none in its content. -/
theorem count_newline_framed (options : RenderOptions) (number : Nat) {content : String}
    (oneLine : '\n' ∉ content.toList) :
    (framed options number content).toList.count '\n' = 1 := by
  have reset : resetEscape.toList.count '\n' = 0 := by decide
  have labelled : (if options.numberRows then label number else "").toList.count '\n' = 0 := by
    rw [List.count_eq_zero]
    split
    · exact fun member => not_isControl_of_mem_label member (by decide)
    · exact List.not_mem_nil
  have bar : (if options.numberRows then "|" else "").toList.count '\n' = 0 := by
    split <;> decide
  have last : "\n".toList.count '\n' = 1 := by decide
  simp only [framed_eq, String.toList_append, List.count_append, reset, labelled, bar, last,
    List.count_eq_zero.mpr oneLine]

end Row

/-! ## Screens -/

namespace Screen

variable {width : Nat}

/-- Rows of pieces in their frames, numbered from one after a start. -/
def lines (options : RenderOptions) (start : Nat) (rows : List (List Piece)) : String :=
  String.join (rows.mapIdx fun index pieces =>
    Row.framed options (start + index + 1) (Piece.join options.escapes pieces))

theorem lines_cons (options : RenderOptions) (start : Nat) (pieces : List Piece)
    (rows : List (List Piece)) :
    lines options start (pieces :: rows)
      = Row.framed options (start + 1) (Piece.join options.escapes pieces)
        ++ lines options (start + 1) rows := by
  simp [lines, List.mapIdx_cons, String.join_cons, Nat.add_assoc, Nat.add_comm 1]

theorem harmless_lines (options : RenderOptions) (start : Nat) (rows : List (List Piece)) :
    Text.Harmless (lines options start rows).toList := by
  induction rows generalizing start with
  | nil => exact Text.harmless_nil
  | cons pieces rows ih =>
    rw [lines_cons, String.toList_append]
    exact (Row.harmless_framed options _ (Piece.harmless_join _ pieces)).append (ih (start + 1))

theorem count_newline_lines (options : RenderOptions) (start : Nat) (rows : List (List Piece)) :
    (lines options start rows).toList.count '\n' = rows.length := by
  induction rows generalizing start with
  | nil => rfl
  | cons pieces rows ih =>
    rw [lines_cons, String.toList_append, List.count_append,
      Row.count_newline_framed options _ (Piece.newline_not_mem_join _ pieces), ih,
      List.length_cons, Nat.add_comm]

theorem exists_join_eq_contents (options : RenderOptions) {rows : List (Row width)}
    (drawn : ∀ row ∈ rows, ∀ cell ∈ row.cells.toList, cell.FromCodePage) (before : Option Pen) :
    ∃ lines : List (List Piece), lines.length = rows.length
      ∧ lines.map (Piece.join options.escapes) = contents options rows before := by
  induction rows generalizing before with
  | nil => exact ⟨[], rfl, rfl⟩
  | cons row rows ih =>
    obtain ⟨first, joined⟩ := Row.exists_join_eq_content options (drawn row List.mem_cons_self)
      (Row.baseline options before)
    obtain ⟨rest, length, equal⟩ :=
      ih (fun other member => drawn other (List.mem_cons_of_mem _ member)) _
    refine ⟨first :: rest, congrArg (· + 1) length, ?_⟩
    rw [List.map_cons, joined, equal, contents]

/-- Rendering a screen whose glyphs are from the code page is writing rows of pieces. -/
theorem exists_writeTo_eq_write_lines (options : RenderOptions) {screen : Screen width}
    (drawn : ∀ row ∈ screen.rows.toList, ∀ cell ∈ row.cells.toList, cell.FromCodePage) :
    ∃ rows : List (List Piece), rows.length = screen.height
      ∧ screen.writeTo options = Outlet.write (lines options 0 rows) := by
  obtain ⟨rows, length, joined⟩ := exists_join_eq_contents options drawn none
  have same : (contents options screen.rows.toList none).mapIdx
        (fun index content => Row.framed options (index + 1) content)
      = rows.mapIdx fun index pieces =>
          Row.framed options (0 + index + 1) (Piece.join options.escapes pieces) := by
    apply List.ext_getElem?
    intro index
    simp [← joined, List.getElem?_mapIdx, Function.comp_def]
  exact ⟨rows, length, by rw [writeTo_eq, same, lines]⟩

end Screen

end AnsiCanvas
