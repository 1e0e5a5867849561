import AnsiCanvas.Proofs.Screen.Effective
import AnsiCanvas.Proofs.Screen.Grammar
import AnsiCanvas.Proofs.Screen.Replay
import Mathlib.Data.List.Basic

/-! # Screens read back from their output

From the output alone a screen can be made: each line is taken out of its frame and replayed
from the plain pen, and what it shows is drawn into the cells of a row.  This gives the effective
screen back, so writing it once more gives the same output.
-/

namespace AnsiCanvas

variable {width : Nat}

/-! ## Lines -/

namespace Text

/-- The lines of a text, if each of them is ended by a newline. -/
def lines? (text : List Char) : Option (List (List Char)) :=
  let parts := text.splitOn '\n'
  if parts.getLast? = some [] then some parts.dropLast else none

theorem splitOn_flatMap {lines : List (List Char)} (none : ∀ line ∈ lines, '\n' ∉ line) :
    (lines.flatMap (· ++ ['\n'])).splitOn '\n' = lines ++ [[]] := by
  induction lines with
  | nil => rfl
  | cons line lines ih =>
    have rest := ih fun other member => none other (List.mem_cons_of_mem _ member)
    rw [List.flatMap_cons, List.append_assoc, List.singleton_append,
      List.splitOn_append_cons_self, List.splitOn_eq_singleton (none line List.mem_cons_self),
      rest]
    rfl

theorem lines?_flatMap {lines : List (List Char)} (none : ∀ line ∈ lines, '\n' ∉ line) :
    lines? (lines.flatMap (· ++ ['\n'])) = some lines := by
  simp [lines?, splitOn_flatMap none]

end Text

/-! ## Rows -/

namespace Row

/-- What stands before the content of a row. -/
def leading (options : RenderOptions) (number : Nat) : String :=
  resetEscape ++ if options.numberRows then label number else ""

/-- What stands after the content of a row, but for the newline. -/
def trailing (options : RenderOptions) : String :=
  resetEscape ++ if options.numberRows then "|" else ""

/-- A content in its frame, without the newline. -/
def line (options : RenderOptions) (number : Nat) (content : String) : List Char :=
  (leading options number).toList ++ content.toList ++ (trailing options).toList

theorem toList_framed (options : RenderOptions) (number : Nat) (content : String) :
    (framed options number content).toList = line options number content ++ ['\n'] := by
  simp [framed_eq, line, leading, trailing]

theorem newline_not_mem_line (options : RenderOptions) (number : Nat) {content : String}
    (oneLine : '\n' ∉ content.toList) : '\n' ∉ line options number content := by
  have one := count_newline_framed options number oneLine
  rw [toList_framed, List.count_append, List.count_singleton_self] at one
  exact List.count_eq_zero.mp (by omega)

/-- What a line holds between the parts of its frame. -/
def unframed? (options : RenderOptions) (number : Nat) (line : List Char) :
    Option (List Char) := do
  let rest ← line.dropPrefix? (leading options number).toList
  rest.dropSuffix? (trailing options).toList

theorem unframed?_line (options : RenderOptions) (number : Nat) (content : String) :
    unframed? options number (line options number content) = some content.toList := by
  have front : (line options number content).dropPrefix? (leading options number).toList
      = some (content.toList ++ (trailing options).toList) := by
    rw [line, List.append_assoc]
    exact List.dropPrefix?_append_of_beq _ (beq_self_eq_true _)
  have back : (content.toList ++ (trailing options).toList).dropSuffix? (trailing options).toList
      = some content.toList :=
    List.dropSuffix?_eq_some_iff.mpr ⟨_, rfl, beq_self_eq_true _⟩
  rw [unframed?, front, Option.bind_eq_bind, Option.bind_some, back]

/-- The row on which characters are drawn with the pens they are shown with, if they are as
    many as the row has cells. -/
def ofShown? (shown : List (Char × Pen)) : Option (Row width) :=
  if whole : shown.length = width then
    some ⟨⟨(shown.map fun (glyph, pen) => Cell.draw glyph pen).toArray, by simpa using whole⟩⟩
  else
    none

theorem ofShown?_appearance {row : Row width} {downsample : Bool}
    (inRange : ∀ cell ∈ row.cells.toList, cell.pen.InRange) :
    ofShown? (row.cells.toList.map (·.appearance downsample))
      = some (row.effective downsample) := by
  have cells : (row.cells.toList.map (·.appearance downsample)).map
        (fun (glyph, pen) => Cell.draw glyph pen)
      = (row.effective downsample).cells.toList := by
    rw [List.map_map, toList_effective]
    apply List.map_congr_left
    intro cell member
    exact congrArg (Cell.draw cell.glyph) (Pen.appearance_of_inRange (inRange cell member) _)
  have whole : (row.cells.toList.map (·.appearance downsample)).length = width := by simp
  rw [ofShown?, dif_pos whole, Option.some.injEq, mk.injEq, ← Vector.toArray_inj]
  show (List.map _ _).toArray = _
  rw [cells, Vector.toArray_toList]

/-- The row that a line shows when it is replayed from the plain pen. -/
def reread? (options : RenderOptions) (strict : Bool) (number : Nat) (line : List Char) :
    Option (Row width) := do
  let content ← unframed? options number line
  let shown ← (replay { strict } .plain content).toOption
  ofShown? shown

theorem reread?_line {options : RenderOptions} (sent : options.escapes.visible = false)
    (unlimited : options.rowBudget = 0) (strict : Bool) (number : Nat) {row : Row width}
    (legible : ∀ cell ∈ row.cells.toList, cell.glyph ≠ '\x1b')
    (inRange : ∀ cell ∈ row.cells.toList, cell.pen.InRange) :
    reread? options strict number (line options number (row.content options none))
      = some (row.effective options.escapes.downsample) := by
  have closed : ({ strict } : Collector).isOpen = false := rfl
  obtain ⟨shown, replayed, -, all⟩ := replay_content closed sent legible
  rw [reread?, unframed?_line, Option.bind_eq_bind, Option.bind_some, replayed, all unlimited]
  exact ofShown?_appearance inRange

end Row

/-! ## Screens -/

namespace Screen

/-- A screen whose glyphs are characters of the code page and whose pens are in range, as are
    those that documents lead to. -/
structure FromDocument (screen : Screen width) : Prop where
  glyphs : ∀ row ∈ screen.rows.toList, ∀ cell ∈ row.cells.toList, cell.FromCodePage
  pens : ∀ row ∈ screen.rows.toList, ∀ cell ∈ row.cells.toList, cell.pen.InRange

/-- The rows that lines show, numbered from the first on. -/
def rereadRows? (options : RenderOptions) (strict : Bool) :
    Nat → List (List Char) → Option (List (Row width))
  | _, [] => some []
  | number, line :: rest => do
    let row ← Row.reread? options strict number line
    let rows ← rereadRows? options strict (number + 1) rest
    some (row :: rows)

/-- The screen that a text shows. -/
def reread? (options : RenderOptions) (strict : Bool) (text : String) :
    Option (Screen width) := do
  let lines ← Text.lines? text.toList
  let rows ← rereadRows? options strict 1 lines
  some ⟨rows.toArray⟩

/-- The lines of rows that start anew each. -/
def linesFrom (options : RenderOptions) (start : Nat) (rows : List (Row width)) :
    List (List Char) :=
  rows.mapIdx fun index row => Row.line options (index + start) (row.content options none)

theorem linesFrom_cons (options : RenderOptions) (start : Nat) (row : Row width)
    (rows : List (Row width)) :
    linesFrom options start (row :: rows)
      = Row.line options start (row.content options none)
        :: linesFrom options (start + 1) rows := by
  simp [linesFrom, List.mapIdx_cons, Nat.add_assoc, Nat.add_comm 1]

/-- What is written of rows is lines, each ended by a newline. -/
theorem flatMap_linesFrom (options : RenderOptions) (start : Nat) (rows : List (Row width)) :
    ((rows.map fun row => row.content options none).mapIdx fun index content =>
        Row.framed options (index + start) content).flatMap String.toList
      = (linesFrom options start rows).flatMap (· ++ ['\n']) := by
  induction rows generalizing start with
  | nil => rfl
  | cons row rows ih =>
    have rest := ih (start + 1)
    rw [linesFrom_cons, List.flatMap_cons, ← rest, ← Row.toList_framed]
    simp [List.mapIdx_cons, Nat.add_assoc, Nat.add_comm 1]

theorem newline_not_mem_linesFrom (options : RenderOptions) (start : Nat)
    {rows : List (Row width)}
    (drawn : ∀ row ∈ rows, ∀ cell ∈ row.cells.toList, cell.FromCodePage) :
    ∀ line ∈ linesFrom options start rows, '\n' ∉ line := by
  intro line member
  obtain ⟨index, inside, rfl⟩ := List.mem_mapIdx.mp member
  obtain ⟨pieces, joined⟩ :=
    Row.exists_join_eq_content options (drawn _ (List.getElem_mem inside)) none
  exact Row.newline_not_mem_line options _ (joined ▸ Piece.newline_not_mem_join _ pieces)

theorem rereadRows?_linesFrom {options : RenderOptions} (sent : options.escapes.visible = false)
    (unlimited : options.rowBudget = 0) (strict : Bool) (start : Nat) {rows : List (Row width)}
    (legible : ∀ row ∈ rows, ∀ cell ∈ row.cells.toList, cell.glyph ≠ '\x1b')
    (inRange : ∀ row ∈ rows, ∀ cell ∈ row.cells.toList, cell.pen.InRange) :
    rereadRows? options strict start (linesFrom options start rows)
      = some (rows.map (·.effective options.escapes.downsample)) := by
  induction rows generalizing start with
  | nil => rfl
  | cons row rows ih =>
    have first := Row.reread?_line sent unlimited strict start (legible row List.mem_cons_self)
      (inRange row List.mem_cons_self)
    have rest := ih (start + 1) (fun other member => legible other (List.mem_cons_of_mem _ member))
      (fun other member => inRange other (List.mem_cons_of_mem _ member))
    rw [linesFrom_cons, rereadRows?, first, Option.bind_eq_bind, Option.bind_some, rest]
    rfl

theorem render_eq (options : RenderOptions) (screen : Screen width) :
    screen.render options
      = String.join ((contents options screen.rows.toList none).mapIdx
          fun index content => Row.framed options (index + 1) content) := by
  rw [render, writeTo_eq, Outlet.collect, Outlet.write_fresh]
  exact Outlet.text_received _

theorem toList_render {options : RenderOptions} (resets : options.baseline = .resetPerRow)
    (screen : Screen width) :
    (screen.render options).toList
      = (linesFrom options 1 screen.rows.toList).flatMap (· ++ ['\n']) := by
  rw [render_eq, contents_of_resetPerRow resets, String.toList_join, flatMap_linesFrom]

/-- The output of a screen shows its effective screen. -/
theorem FromDocument.reread?_render {screen : Screen width} (document : screen.FromDocument)
    {options : RenderOptions} (resets : options.baseline = .resetPerRow)
    (sent : options.escapes.visible = false) (unlimited : options.rowBudget = 0) (strict : Bool) :
    reread? options strict (screen.render options)
      = some (screen.effective options.escapes.downsample) := by
  have legible : ∀ row ∈ screen.rows.toList, ∀ cell ∈ row.cells.toList, cell.glyph ≠ '\x1b' := by
    intro row inScreen cell inRow escape
    obtain ⟨byte, glyph⟩ := document.glyphs row inScreen cell inRow
    exact Charset.not_isControl_glyph byte (glyph ▸ escape ▸ by decide)
  rw [reread?, toList_render resets,
    Text.lines?_flatMap (newline_not_mem_linesFrom options 1 document.glyphs),
    Option.bind_eq_bind, Option.bind_some,
    rereadRows?_linesFrom sent unlimited strict 1 legible document.pens, Option.bind_eq_bind,
    Option.bind_some, ← Array.toList_map, Array.toArray_toList, effective]

end Screen

end AnsiCanvas
