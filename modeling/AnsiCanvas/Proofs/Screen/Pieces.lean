import AnsiCanvas.Proofs.Outlet
import AnsiCanvas.Screen.Rendering

/-! # Rows in pieces

What is written of a row is a list of pieces, the escape of each cell and its glyph, as
far as the budget allows, within a frame that is always complete.  Rendering a screen is
writing the text made of these rows.
-/

namespace AnsiCanvas

open Outlet (Writing write)

variable {width : Nat}

namespace Text

theorem toList_pushn (text : String) (c : Char) (count : Nat) :
    (text.pushn c count).toList = text.toList ++ List.replicate count c := by
  induction count with
  | zero => exact (List.append_nil _).symm
  | succ count ih =>
    have last : text.pushn c (count + 1) = (text.pushn c count).push c := rfl
    rw [last, String.toList_push, ih, List.append_assoc, List.replicate_succ']

end Text

namespace Row

/-- The pieces of cells: for each its escape, empty if there is none, and its glyph. -/
def pieces (options : EscapeOptions) : Option Pen → List Cell → List String
  | _, [] => []
  | before, cell :: rest =>
    cell.pen.escape before options :: cell.glyph.toString :: pieces options (some cell.pen) rest

/-- The pieces that fit a budget of which some is used: all up to the first that does
    not fit. -/
def fitting (options : RenderOptions) : Nat → List String → List String
  | _, [] => []
  | used, piece :: rest =>
    if options.fits used piece.utf8ByteSize then
      piece :: fitting options (used + piece.utf8ByteSize) rest
    else
      []

theorem length_pieces (options : EscapeOptions) (before : Option Pen) (cells : List Cell) :
    (pieces options before cells).length = 2 * cells.length := by
  induction cells generalizing before with
  | nil => rfl
  | cons cell cells ih =>
    rw [pieces, List.length_cons, List.length_cons, ih, List.length_cons]
    omega

theorem fitting_prefix (options : RenderOptions) (used : Nat) (pieces : List String) :
    fitting options used pieces <+: pieces := by
  induction pieces generalizing used with
  | nil => exact List.prefix_rfl
  | cons piece pieces ih =>
    rw [fitting]
    split
    · exact List.cons_prefix_cons.mpr ⟨rfl, ih _⟩
    · exact List.nil_prefix

theorem fitting_of_unlimited {options : RenderOptions} (unlimited : options.rowBudget = 0)
    (used : Nat) (pieces : List String) : fitting options used pieces = pieces := by
  induction pieces generalizing used with
  | nil => rfl
  | cons piece pieces ih => simp [fitting, RenderOptions.fits, unlimited, ih]

/-- The pen of the last cell that was reached. -/
def reached (options : RenderOptions) : List Cell → Option Pen → Nat → Option Pen
  | [], before, _ => before
  | cell :: rest, before, used =>
    let escape := (cell.pen.escape before options.escapes).utf8ByteSize
    let glyph := cell.glyph.toString.utf8ByteSize
    if options.fits used escape && options.fits (used + escape) glyph then
      reached options rest (some cell.pen) (used + escape + glyph)
    else
      some cell.pen

theorem writeCells_eq (options : RenderOptions) (cells : List Cell) (before : Option Pen)
    (used : Nat) :
    writeCells options cells before used = (do
      write (String.join (fitting options used (pieces options.escapes before cells)))
      pure (reached options cells before used)) := by
  induction cells generalizing before used with
  | nil => simp [writeCells, pieces, fitting, reached]
  | cons cell cells ih =>
    simp only [writeCells, pieces, fitting, reached]
    generalize cell.pen.escape before options.escapes = escape
    generalize cell.glyph.toString = glyph
    -- The row ends before an escape that does not fit, or between it and its glyph.
    by_cases escapeFits : options.fits used escape.utf8ByteSize
    · by_cases glyphFits : options.fits (used + escape.utf8ByteSize) glyph.utf8ByteSize
      · simp [escapeFits, glyphFits, ih, Outlet.write_append]
      · simp [escapeFits, glyphFits]
    · simp [escapeFits]

/-- What is written of a row within its frame, when its first cell is compared with a
    given pen. -/
def content (options : RenderOptions) (row : Row width) (before : Option Pen) : String :=
  String.join (fitting options 0 (pieces options.escapes before row.cells.toList))

/-- A row as it is printed.  Its content stands between two resets.  A numbered row begins with its
    number, right-aligned in five columns, a colon and a space, and ends with a bar. -/
def framed (options : RenderOptions) (number : Nat) (content : String) : String :=
  if options.numberRows then
    "\x1b[0m" ++ String.ofList (List.leftpad 5 ' ' (Nat.toDigits 10 number)) ++ ": " ++ content
      ++ "\x1b[0m|\n"
  else
    "\x1b[0m" ++ content ++ "\x1b[0m\n"

theorem toList_label (number : Nat) :
    (label number).toList = List.leftpad 5 ' ' (Nat.toDigits 10 number) ++ [':', ' '] := by
  have length : number.repr.length = (Nat.toDigits 10 number).length := by
    rw [← String.length_toList, Nat.toList_repr]
  simp [label, Text.toList_pushn, List.leftpad, length]

/-- The frame as it is written, piece by piece. -/
theorem framed_eq (options : RenderOptions) (number : Nat) (content : String) :
    framed options number content
      = resetEscape ++ (if options.numberRows then label number else "") ++ content
        ++ resetEscape ++ (if options.numberRows then "|" else "") ++ "\n" := by
  apply String.toList_injective
  cases numbered : options.numberRows <;> simp [framed, numbered, toList_label, resetEscape]

def baseline (options : RenderOptions) (before : Option Pen) : Option Pen :=
  match options.baseline with
  | .resetPerRow => none
  | .carryAcrossRows => before

theorem baseline_of_carryAcrossRows {options : RenderOptions}
    (carries : options.baseline = .carryAcrossRows) (before : Option Pen) :
    baseline options before = before := by
  rw [baseline, carries]

theorem writeTo_eq (options : RenderOptions) (number : Nat) (row : Row width)
    (before : Option Pen) :
    row.writeTo options number before = (do
      write (framed options number (row.content options (baseline options before)))
      pure (reached options row.cells.toList (baseline options before) 0)) := by
  simp only [writeTo, writeCells_eq, framed_eq, content, baseline]
  -- The frame does not look at what it holds.
  generalize String.join _ = text
  cases options.baseline <;> cases options.numberRows <;> simp [Outlet.write_append]

end Row

namespace Screen

/-- What is written of the rows within their frames. -/
def contents (options : RenderOptions) : List (Row width) → Option Pen → List String
  | [], _ => []
  | row :: rest, before =>
    row.content options (Row.baseline options before) ::
      contents options rest (Row.reached options row.cells.toList (Row.baseline options before) 0)

theorem writeRows_eq (options : RenderOptions) (number : Nat) (rows : List (Row width))
    (before : Option Pen) :
    writeRows options number rows before
      = Outlet.write (String.join ((contents options rows before).mapIdx fun index content =>
          Row.framed options (number + index) content)) := by
  induction rows generalizing number before with
  | nil => simp [writeRows, contents]
  | cons row rows ih =>
    simp only [writeRows, contents, Row.writeTo_eq, ih, List.mapIdx_cons, String.join_cons,
      Outlet.write_append]
    simp [Nat.add_assoc, Nat.add_comm 1]

/-- Rendering a screen is writing its rows in their frames, counted from one. -/
theorem writeTo_eq (options : RenderOptions) (screen : Screen width) :
    screen.writeTo options
      = Outlet.write (String.join ((contents options screen.rows.toList none).mapIdx
          fun index content => Row.framed options (index + 1) content)) := by
  rw [writeTo, writeRows_eq]
  simp only [Nat.add_comm 1]

/-- When every row starts anew, no row depends on another. -/
theorem contents_of_resetPerRow {options : RenderOptions}
    (resets : options.baseline = .resetPerRow) (rows : List (Row width)) (before : Option Pen) :
    contents options rows before = rows.map fun row => row.content options none := by
  induction rows generalizing before with
  | nil => rfl
  | cons row rows ih => simp [contents, ih, Row.baseline, resets]

end Screen

end AnsiCanvas
