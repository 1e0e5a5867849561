import AnsiCanvas.Proofs.Screen.Pieces

/-! # What a budget leaves of a row

The budget of a row keeps the longest beginning of its pieces that is small enough: whole escapes
and whole glyphs, and all of them up to the first that does not fit.  Being the longest, a beginning
is determined by the pieces and the budget, and a larger budget can only lengthen it.

Where rows start anew, the pieces of a row are the same with every budget, and cutting one row
leaves all others as they are.
-/

namespace AnsiCanvas

variable {width : Nat}

/-- The same options with another budget. -/
def RenderOptions.withBudget (options : RenderOptions) (budget : Nat) : RenderOptions :=
  { options with rowBudget := budget }

namespace Row

/-! ## Pieces that are not empty -/

/-- What is written of cells one after the other: the escape of each, if there is one, and its
    glyph. -/
def parts (escapes : EscapeOptions) : Option Pen → List Cell → List String
  | _, [] => []
  | before, cell :: rest =>
    let escape := cell.pen.escape before escapes
    (if escape = "" then [] else [escape])
      ++ cell.glyph.toString :: parts escapes (some cell.pen) rest

theorem filter_pieces (escapes : EscapeOptions) (before : Option Pen) (cells : List Cell) :
    (pieces escapes before cells).filter (· != "") = parts escapes before cells := by
  induction cells generalizing before with
  | nil => rfl
  | cons cell cells ih =>
    rw [pieces, parts, List.filter_cons, List.filter_cons, ih]
    by_cases none : cell.pen.escape before escapes = "" <;> simp [none]

theorem join_filter (pieces : List String) :
    String.join (pieces.filter (· != "")) = String.join pieces := by
  induction pieces with
  | nil => rfl
  | cons piece pieces ih =>
    by_cases empty : piece = ""
    · simpa [empty, String.join_cons] using ih
    · simpa [empty, String.join_cons] using ih

theorem join_parts (escapes : EscapeOptions) (before : Option Pen) (cells : List Cell) :
    String.join (parts escapes before cells) = String.join (pieces escapes before cells) := by
  rw [← filter_pieces, join_filter]

/-! ## The longest beginning -/

/-- Of all beginnings of a list of pieces that take no more bytes than a budget, the longest. -/
structure LongestWithin (budget : Nat) (pieces kept : List String) : Prop where
  beginning : kept <+: pieces
  bounded : (String.join kept).utf8ByteSize ≤ budget
  longest : ∀ other, other <+: pieces → (String.join other).utf8ByteSize ≤ budget → other <+: kept

theorem LongestWithin.mono {smaller larger : Nat} (le : smaller ≤ larger)
    {pieces few many : List String} (short : LongestWithin smaller pieces few)
    (long : LongestWithin larger pieces many) : few <+: many :=
  long.longest few short.beginning (Nat.le_trans short.bounded le)

theorem LongestWithin.unique {budget : Nat} {pieces first second : List String}
    (one : LongestWithin budget pieces first) (other : LongestWithin budget pieces second) :
    first = second :=
  (one.mono (Nat.le_refl _) other).eq_of_length_le (other.mono (Nat.le_refl _) one).length_le

variable {options : RenderOptions}

theorem fits_iff (limited : 0 < options.rowBudget) {used size : Nat} :
    options.fits used size = true ↔ used + size ≤ options.rowBudget := by
  have notZero : options.rowBudget ≠ 0 := by omega
  simp [RenderOptions.fits, notZero]

/-- Empty pieces always fit. -/
theorem filter_fitting (limited : 0 < options.rowBudget) {used : Nat}
    (left : used ≤ options.rowBudget) (pieces : List String) :
    (fitting options used pieces).filter (· != "")
      = fitting options used (pieces.filter (· != "")) := by
  induction pieces generalizing used with
  | nil => rfl
  | cons piece pieces ih =>
    rw [fitting]
    by_cases empty : piece = ""
    · subst empty
      have fits : options.fits used "".utf8ByteSize = true := (fits_iff limited).mpr left
      rw [if_pos fits]
      simpa using ih left
    · split
      · next fits =>
        have rest := ih ((fits_iff limited).mp fits)
        simp [empty, fitting, fits, rest]
      · next spills => simp [empty, fitting, spills]

/-- What fits is the longest beginning within what is left of the budget. -/
theorem longestWithin_fitting (limited : 0 < options.rowBudget) {used : Nat}
    (left : used ≤ options.rowBudget) (pieces : List String) :
    LongestWithin (options.rowBudget - used) pieces (fitting options used pieces) := by
  induction pieces generalizing used with
  | nil => exact ⟨List.prefix_rfl, by simp [fitting], fun _ beginning _ => beginning⟩
  | cons piece pieces ih =>
    rw [fitting]
    split
    · next fits =>
      rw [fits_iff limited] at fits
      obtain ⟨beginning, bounded, longest⟩ := ih fits
      refine ⟨List.cons_prefix_cons.mpr ⟨rfl, beginning⟩, ?_, ?_⟩
      · rw [String.join_cons, String.utf8ByteSize_append]
        omega
      · intro other isBeginning small
        cases other with
        | nil => exact List.nil_prefix
        | cons first other =>
          obtain ⟨rfl, rest⟩ := List.cons_prefix_cons.mp isBeginning
          rw [String.join_cons, String.utf8ByteSize_append] at small
          exact List.cons_prefix_cons.mpr ⟨rfl, longest other rest (by omega)⟩
    · next spills =>
      rw [fits_iff limited] at spills
      refine ⟨List.nil_prefix, by simp, ?_⟩
      intro other isBeginning small
      cases other with
      | nil => exact List.nil_prefix
      | cons first other =>
        obtain ⟨rfl, -⟩ := List.cons_prefix_cons.mp isBeginning
        rw [String.join_cons, String.utf8ByteSize_append] at small
        omega

/-- The parts of a row that its budget leaves. -/
def kept (options : RenderOptions) (before : Option Pen) (row : Row width) : List String :=
  fitting options 0 (parts options.escapes before row.cells.toList)

theorem longestWithin_kept (limited : 0 < options.rowBudget) (before : Option Pen)
    (row : Row width) :
    LongestWithin options.rowBudget (parts options.escapes before row.cells.toList)
      (row.kept options before) :=
  longestWithin_fitting limited (Nat.zero_le _) _

theorem content_of_limited (limited : 0 < options.rowBudget) (before : Option Pen)
    (row : Row width) : row.content options before = String.join (row.kept options before) := by
  rw [content, kept, ← filter_pieces, ← filter_fitting limited (Nat.zero_le _), join_filter]

theorem content_of_unlimited (unlimited : options.rowBudget = 0) (before : Option Pen)
    (row : Row width) :
    row.content options before
      = String.join (parts options.escapes before row.cells.toList) := by
  rw [content, fitting_of_unlimited unlimited, join_parts]

end Row

namespace Screen

open Row (LongestWithin parts)

/-- A screen whose rows are known, each by its index, is written row by row within frames. -/
theorem writeTo_of_contents {options : RenderOptions} {screen : Screen width}
    {content : Nat → Row width → String}
    (known : ∀ index, (contents options screen.rows.toList none)[index]?
      = screen.rows.toList[index]?.map (content index)) :
    screen.writeTo options
      = Outlet.write (String.join (screen.rows.toList.mapIdx fun index row =>
          Row.framed options (index + 1) (content index row))) := by
  have rows : contents options screen.rows.toList none = screen.rows.toList.mapIdx content :=
    List.ext_getElem? fun index => by rw [known, List.getElem?_mapIdx]
  rw [writeTo_eq, rows, List.mapIdx_mapIdx]
  rfl

theorem writeTo_of_resetPerRow {options : RenderOptions} (resets : options.baseline = .resetPerRow)
    {content : Row width → String} (known : ∀ row, row.content options none = content row)
    (screen : Screen width) :
    screen.writeTo options
      = Outlet.write (String.join (screen.rows.toList.mapIdx fun index row =>
          Row.framed options (index + 1) (content row))) := by
  refine writeTo_of_contents fun index => ?_
  rw [contents_of_resetPerRow resets, List.getElem?_map, funext known]

/-- A budget cuts rows between their parts, each for itself.  Where rows start anew, what is within
    the frame of a row is with a budget the longest beginning of the parts that are there without
    one: all whole, no more bytes than the budget, and the more the larger it is.  The frames are
    complete, and what is left of a row is the same whatever the other rows are. -/
theorem writeTo_keeps_longest {options : RenderOptions} (resets : options.baseline = .resetPerRow) :
    ∃ kept : Nat → Row width → List String,
      (∀ budget row, 0 < budget →
          LongestWithin budget (parts options.escapes none row.cells.toList) (kept budget row))
        ∧ (∀ smaller larger row, 0 < smaller → smaller ≤ larger →
            kept smaller row <+: kept larger row)
        ∧ ∀ screen : Screen width,
            screen.writeTo (options.withBudget 0)
                = Outlet.write (String.join (screen.rows.toList.mapIdx fun index row =>
                    Row.framed options (index + 1)
                      (String.join (parts options.escapes none row.cells.toList))))
              ∧ ∀ budget, 0 < budget →
                  screen.writeTo (options.withBudget budget)
                    = Outlet.write (String.join (screen.rows.toList.mapIdx fun index row =>
                        Row.framed options (index + 1) (String.join (kept budget row)))) := by
  have stillResets (budget : Nat) : (options.withBudget budget).baseline = .resetPerRow := resets
  have limits (budget : Nat) (limited : 0 < budget) :
      0 < (options.withBudget budget).rowBudget := limited
  have longest (budget : Nat) (row : Row width) (limited : 0 < budget) :=
    Row.longestWithin_kept (limits budget limited) none row
  refine ⟨fun budget => Row.kept (options.withBudget budget) none, longest, ?_,
    fun screen => ⟨?_, fun budget limited => ?_⟩⟩
  · intro smaller larger row limited le
    exact (longest smaller row limited).mono le
      (longest larger row (Nat.lt_of_lt_of_le limited le))
  · exact writeTo_of_resetPerRow (stillResets 0) (Row.content_of_unlimited rfl none) screen
  · exact writeTo_of_resetPerRow (stillResets budget)
      (Row.content_of_limited (limits budget limited) none) screen

/-- Ten bytes are enough for an escape and its glyph, and not for the next escape. -/
theorem writeTo_keeps_escape_and_glyph :
    (⟨#[⟨#v[.draw 'A' ⟨⟨0⟩, .classic 1, .unset⟩, .draw 'B' ⟨⟨0⟩, .classic 4, .unset⟩]⟩]⟩ :
        Screen 2).writeTo { rowBudget := 10 }
      = Outlet.write "\x1b[0m\x1b[31;40mA\x1b[0m\n" := by
  obtain ⟨kept, longest, -, written⟩ := @writeTo_keeps_longest 2 {} rfl
  have ten : 0 < RenderOptions.rowBudget { rowBudget := 10 } := by decide
  have same (row : Row 2) : kept 10 row = row.kept { rowBudget := 10 } none :=
    (longest 10 row ten).unique (Row.longestWithin_kept ten none row)
  refine ((written _).2 10 ten).trans ?_
  simp only [same]
  exact congrArg Outlet.write (by decide)

end Screen

end AnsiCanvas
