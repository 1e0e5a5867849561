import AnsiCanvas.Settings.File
import AnsiCanvas.Proofs.Json.Object
import AnsiCanvas.Proofs.Outlet

/-! # Reading settings files

A file that gives some fields, in any order and any spelling, is read as the defaults with those
fields replaced.  The text that settings are written as is one such file, which gives them all.

The induction is on the fields as the file has them.  It is carried by the fields given so far, none
of which comes again.
-/

namespace AnsiCanvas.Settings

open Json

/-! ## Values of fields -/

/-- Settings whose counts are 64-bit counts. -/
structure InRange (settings : Settings) : Prop where
  width : settings.width ≤ Count.largest
  rowBudget : settings.rowBudget ≤ Count.largest
  rowLimit : settings.rowLimit ≤ Count.largest

/-- The settings `base` with the given fields as `source` has them. -/
def taking (base source : Settings) (given : List Field) : Settings where
  width := if .width ∈ given then source.width else base.width
  rowBudget := if .rowBudget ∈ given then source.rowBudget else base.rowBudget
  downsample := if .downsample ∈ given then source.downsample else base.downsample
  visibleEscapes := if .visibleEscapes ∈ given then source.visibleEscapes else base.visibleEscapes
  numberRows := if .numberRows ∈ given then source.numberRows else base.numberRows
  baseline := if .baseline ∈ given then source.baseline else base.baseline
  unhandled := if .unhandled ∈ given then source.unhandled else base.unhandled
  strict := if .strict ∈ given then source.strict else base.strict
  rowLimit := if .rowLimit ∈ given then source.rowLimit else base.rowLimit

theorem taking_all (base source : Settings) : base.taking source Field.all = source := rfl

theorem taking_cons (base source : Settings) (field : Field) (given : List Field) :
    base.taking source (field :: given) = (base.taking source [field]).taking source given := by
  simp only [taking, List.mem_cons, List.not_mem_nil, or_false, mk.injEq]
  refine ⟨?_, ?_, ?_, ?_, ?_, ?_, ?_, ?_, ?_⟩ <;> grind

/-- The value that a file gives a field. -/
def value (settings : Settings) : Field → Value
  | .width => .number settings.width.repr
  | .rowBudget => .number settings.rowBudget.repr
  | .downsample => .bool settings.downsample
  | .visibleEscapes => .bool settings.visibleEscapes
  | .numberRows => .bool settings.numberRows
  | .baseline => .text (some settings.baseline.name)
  | .unhandled => .text (some settings.unhandled.name)
  | .strict => .bool settings.strict
  | .rowLimit => .number settings.rowLimit.repr

def members (settings : Settings) (given : List Field) : List (String × Value) :=
  given.map fun field => (field.key, settings.value field)

theorem members_cons (settings : Settings) (field : Field) (given : List Field) :
    settings.members (field :: given)
      = (field.key, settings.value field) :: settings.members given := rfl

/-! ## Reading -/

theorem count?_repr {count : Nat} (bounded : count ≤ Count.largest) :
    count? (.number count.repr) = some count := by
  have digits : (Nat.toDigits 10 count).all Char.isDigit = true :=
    List.all_eq_true.mpr fun c => Nat.isDigit_of_mem_toDigits (by decide) (by decide)
  simp [count?, Value.natural?, Nat.toList_repr, digits, Nat.ofDigitChars_ten_toDigits, bounded]

theorem set?_value {source : Settings} (inRange : source.InRange) (base : Settings)
    (field : Field) : base.set? field (source.value field) = some (base.taking source [field]) := by
  cases field with
  | width => rw [set?, value, count?_repr inRange.width]; rfl
  | rowBudget => rw [set?, value, count?_repr inRange.rowBudget]; rfl
  | rowLimit => rw [set?, value, count?_repr inRange.rowLimit]; rfl
  | baseline =>
    simp only [set?, value, Value.name?, Option.bind_some, Baseline.ofName?_name]
    rfl
  | unhandled =>
    simp only [set?, value, Value.name?, Option.bind_some, UnhandledPolicy.ofName?_name]
    rfl
  | downsample | visibleEscapes | numberRows | strict => rfl

theorem setMembers?_members {source : Settings} (inRange : source.InRange) {fields : List Field}
    (distinct : fields.Nodup) (base : Settings) {given : List Field}
    (fresh : ∀ field ∈ fields, field ∉ given) :
    base.setMembers? given (keyed (source.members fields))
      = some (base.taking source fields) := by
  induction fields generalizing base given with
  | nil => rfl
  | cons field fields ih =>
    obtain ⟨notAgain, distinct⟩ := List.nodup_cons.mp distinct
    -- What is still to come has not been given by this member either.
    have freshLater : ∀ other ∈ fields, other ∉ field :: given := by
      intro other member
      rw [List.mem_cons, not_or]
      exact ⟨fun same => notAgain (same ▸ member), fresh other (List.mem_cons_of_mem _ member)⟩
    have first : base.setMembers? given (keyed (source.members (field :: fields)))
        = (base.set? field (source.value field)).bind fun settings =>
            settings.setMembers? (field :: given) (keyed (source.members fields)) := by
      simp only [members_cons, keyed, List.map_cons, setMembers?, Field.ofKey?_key,
        if_neg (fresh field List.mem_cons_self)]
    rw [first, set?_value inRange, Option.bind_some, ih distinct _ freshLater, ← taking_cons]

/-- A text that gives some fields, each once, replaces exactly those, whatever reads its JSON. -/
theorem ofText?_of_readsObjects {read : String → Option Value} (reads : ReadsObjects read)
    {source : Settings} {given : List Field} {text : String} (inRange : source.InRange)
    (distinct : given.Nodup) (spelled : SpellsObject (source.members given) text.toList) :
    ofText? read text = some (({} : Settings).taking source given) := by
  rw [ofText?, reads spelled, Option.bind_some, ofValue?,
    setMembers?_members inRange distinct _ fun _ _ => List.not_mem_nil]

theorem ofFile_of_spellsObject {source : Settings} {given : List Field} {text : String}
    (inRange : source.InRange) (distinct : given.Nodup)
    (spelled : SpellsObject (source.members given) text.toList) :
    ofFile (some text.toUTF8) = .ok (({} : Settings).taking source given) := by
  have read := ofText?_of_readsObjects Value.readsObjects_ofText? inRange distinct spelled
  simp only [ofFile, ofBytes, Outlet.fromUTF8?_toUTF8, read]

/-! ## Writing -/

theorem spellsString_nameText {name : String} (plain : name.toList.all isPlain = true) :
    SpellsString name (nameText name).toList := by
  refine ⟨name.toList, .of_all_isPlain plain, ?_⟩
  rw [nameText, String.toList_append, String.toList_append, List.append_assoc]
  rfl

theorem spellsString_key (field : Field) : SpellsString field.key (nameText field.key).toList := by
  apply spellsString_nameText
  cases field <;> decide

theorem spellsScalar_fieldText (settings : Settings) (field : Field) :
    SpellsScalar (settings.value field) (settings.fieldText field).toList := by
  cases field with
  | width | rowBudget | rowLimit => exact .number _
  | downsample | visibleEscapes | numberRows | strict => exact .bool _
  | baseline =>
    refine .text (spellsString_nameText ?_)
    cases settings.baseline <;> decide
  | unhandled =>
    refine .text (spellsString_nameText ?_)
    cases settings.unhandled <;> decide

def line (settings : Settings) (field : Field) : String :=
  "  " ++ nameText field.key ++ ": " ++ settings.fieldText field

theorem spellsMember_line (settings : Settings) (field : Field) {after : List Char}
    (afterSpace : IsSpace after) :
    SpellsMember field.key (settings.value field)
      ('\n' :: (settings.line field).toList ++ after) := by
  have indent : IsSpace ['\n', ' ', ' '] := by decide
  have nothing : IsSpace [] := by decide
  have gap : IsSpace [' '] := by decide
  have spelled := SpellsMember.mk indent (spellsString_key field) nothing gap
    (spellsScalar_fieldText settings field) afterSpace
  simpa [line] using spelled

/-- The lines of fields, with commas between them, spell the members. -/
theorem spellsMembers_lines (settings : Settings) {fields : List Field} (nonempty : fields ≠ []) :
    SpellsMembers (settings.members fields)
      ('\n' :: (",\n".intercalate (fields.map settings.line)).toList ++ ['\n']) := by
  have newline : IsSpace ['\n'] := by decide
  have nothing : IsSpace [] := by decide
  induction fields with
  | nil => exact absurd rfl nonempty
  | cons field fields ih =>
    cases fields with
    | nil =>
      rw [List.map_singleton, String.intercalate_singleton]
      exact .one (spellsMember_line settings field newline)
    | cons next fields =>
      have spelled := SpellsMembers.cons (spellsMember_line settings field nothing)
        (ih (List.cons_ne_nil _ _))
      have more : (next :: fields).map settings.line ≠ [] := List.cons_ne_nil _ _
      rw [members_cons, List.map_cons, String.intercalate_cons_of_ne_nil more]
      simpa using spelled

theorem spellsObject_fileText (settings : Settings) :
    SpellsObject (settings.members Field.all) settings.fileText.toList := by
  have nothing : IsSpace [] := by decide
  have nonempty : Field.all ≠ [] := List.cons_ne_nil _ _
  have spelled := SpellsObject.members nothing (spellsMembers_lines settings nonempty) nothing
  have text : settings.fileText
      = "\x7b\n" ++ ",\n".intercalate (Field.all.map settings.line) ++ "\n\x7d" := rfl
  rw [text]
  simpa using spelled

/-- Settings that are written to a file and read again are the same, a zero width included. -/
theorem ofFile_fileText {settings : Settings} (inRange : settings.InRange) :
    ofFile (some settings.fileText.toUTF8) = .ok settings := by
  have distinct : Field.all.Nodup := by decide
  rw [ofFile_of_spellsObject inRange distinct (spellsObject_fileText settings), taking_all]

/-! ## Validity -/

theorem validate_eq (settings : Settings) :
    settings.validate = if settings.width = 0 then .error (.invalidWidth 0) else .ok () := by
  rw [validate, screenWidth?]
  by_cases zero : settings.width = 0
  · rw [if_pos zero, if_pos zero, zero]
  · rw [if_neg zero, if_neg zero]

end AnsiCanvas.Settings
