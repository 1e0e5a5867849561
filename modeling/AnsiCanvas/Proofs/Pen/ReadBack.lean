import AnsiCanvas.Proofs.Escape.Range
import AnsiCanvas.Proofs.Escape.Written
import AnsiCanvas.Proofs.Pen.Appearance

/-! # Reading the escapes of pens

The escape written between two pens is one complete graphic rendition sequence, and
following its codes from the appearance of the first pen gives exactly the appearance of
the second.  Where no escape is written the two pens look alike.
-/

namespace AnsiCanvas

/-! ## Renditions -/

namespace Command

theorem ofSequence_rendition {codes : List Nat} (nonempty : codes ≠ [])
    (bytes : ∀ code ∈ codes, code < 256) :
    ofSequence 0x6D (Text.Utf8.encode (controlText codes)) = .ok (.rendition codes) := by
  have values : (codes.map fun code => Parameter.number (min code Parameter.largest))
      = codes.map Parameter.number := by
    apply List.map_congr_left
    intro code member
    have bound := bytes code member
    rw [Nat.min_eq_left (by simp only [Parameter.largest]; omega)]
  apply ofSequence_controlText rfl
  rw [values, ofParameters, renditionCodes?_eq_some_iff.mpr ⟨rfl, bytes⟩]
  simp [nonempty]

end Command

namespace Pen

/-! ## The text of an escape -/

theorem flatMap_codes_ne_nil {changes : List Change} (nonempty : changes ≠ []) :
    changes.flatMap Change.codes ≠ [] := by
  cases changes with
  | nil => contradiction
  | cons change changes => simp [change.codes_ne_nil]

theorem toList_intercalate_repr (codes : List Nat) :
    (";".intercalate (codes.map Nat.repr)).toList = Command.parameterText codes := by
  rw [String.toList_intercalate, List.map_map, Command.parameterText]
  simp [Function.comp_def, Nat.toList_repr]

theorem spell_nil (options : EscapeOptions) : spell options [] = "" := rfl

theorem toList_spell {options : EscapeOptions} (sent : options.visible = false)
    {changes : List Change} (nonempty : changes ≠ []) :
    (spell options changes).toList
      = '\x1b' :: (Command.controlText (changes.flatMap Change.codes) ++ ['m']) := by
  have codesNonempty := flatMap_codes_ne_nil nonempty
  rw [spell]
  cases codes : changes.flatMap Change.codes with
  | nil => contradiction
  | cons code codes =>
    simp only [EscapeOptions.opening, sent, Bool.false_eq_true, ↓reduceIte, String.toList_append,
      toList_intercalate_repr]
    rfl

theorem encode_spell {options : EscapeOptions} (sent : options.visible = false)
    {changes : List Change} (nonempty : changes ≠ []) :
    Text.Utf8.encode (spell options changes).toList
      = 0x1B :: (Text.Utf8.encode (Command.controlText (changes.flatMap Change.codes))
          ++ [0x6D]) := by
  rw [toList_spell sent nonempty, Text.Utf8.encode_cons, Text.Utf8.encode_append]
  rfl

/-! ## What a reader makes of it -/

/-- One whole escape leads from one pen to another: whoever reads the bytes after the
    escape character needs all of them to find a graphic rendition, and its codes make
    the one pen of the other. -/
def LeadsTo (before : Pen) (escape : String) (after : Pen) : Prop :=
  ∃ bytes codes, escape.toUTF8.data.toList = 0x1B :: bytes
    ∧ (∀ collector : Collector,
        collector.read bytes = (collector.reset, some (.ok (.rendition codes)))
          ∧ ∀ part, part <+: bytes → part ≠ bytes → (collector.read part).2 = none)
    ∧ before.merge codes = (after, none)

theorem read_spelled (collector : Collector) {changes : List Change} (nonempty : changes ≠ []) :
    collector.read (Text.Utf8.encode (Command.controlText (changes.flatMap Change.codes)) ++ [0x6D])
      = (collector.reset, some (.ok (.rendition (changes.flatMap Change.codes)))) := by
  have bytes : ∀ code ∈ changes.flatMap Change.codes, code < 256 := by
    intro code member
    obtain ⟨change, _, member⟩ := List.mem_flatMap.mp member
    exact Change.lt_of_mem_codes member
  rw [collector.read_controlText _ (by decide) (by decide),
    Command.ofSequence_rendition (flatMap_codes_ne_nil nonempty) bytes]

theorem leadsTo_spell (before : Pen) {options : EscapeOptions} (sent : options.visible = false)
    {changes : List Change} (nonempty : changes ≠ []) :
    before.LeadsTo (spell options changes) (before.follow changes) := by
  refine ⟨Text.Utf8.encode (Command.controlText (changes.flatMap Change.codes)) ++ [0x6D],
    changes.flatMap Change.codes, ?_, fun collector => ⟨?_, ?_⟩, ?_⟩
  · rw [← Text.Utf8.encode_toList, encode_spell sent nonempty]
  · exact read_spelled collector nonempty
  · intro part within proper
    exact collector.read_part_controlText _ within proper
  · exact merge_flatMap_codes before changes

theorem spell_eq_empty {options : EscapeOptions} (sent : options.visible = false)
    {changes : List Change} (empty : spell options changes = "") : changes = [] := by
  by_cases nonempty : changes = []
  · exact nonempty
  · have text := toList_spell sent nonempty
    simp [empty] at text

theorem changes_none_ne_nil (pen : Pen) (downsample : Bool) : pen.changes none downsample ≠ [] := by
  simp [changes]

/-- Escapes are read back as they were meant.  Between two pens either nothing is
    written, and the pens look alike, or the escape leads from the appearance of the
    first to that of the second.  The escape that says all of a pen leads to its
    appearance from the plain pen. -/
theorem escape_leadsTo_appearance (pen : Pen) (downsample : Bool) :
    (∀ before : Pen,
      if pen.escape (some before) ⟨downsample, false⟩ = "" then
        before.appearance downsample = pen.appearance downsample
      else
        (before.appearance downsample).LeadsTo (pen.escape (some before) ⟨downsample, false⟩)
          (pen.appearance downsample))
    ∧ plain.LeadsTo (pen.escape none ⟨downsample, false⟩) (pen.appearance downsample) := by
  refine ⟨fun before => ?_, ?_⟩
  · have followed := follow_changes pen before downsample
    rw [escape_eq_spell]
    split
    · next empty =>
      rw [spell_eq_empty rfl empty] at followed
      exact followed
    · next written =>
      have nonempty : pen.changes (some before) downsample ≠ [] := by
        intro none
        exact written (by rw [none, spell_nil])
      rw [← followed]
      exact leadsTo_spell _ rfl nonempty
  · rw [escape_eq_spell, ← follow_changes_none]
    exact leadsTo_spell _ rfl (changes_none_ne_nil pen downsample)

end Pen

end AnsiCanvas
