import AnsiCanvas.Proofs.Pen.Effective
import AnsiCanvas.Proofs.Pen.ReadBack
import Mathlib.Data.List.Nodup

/-! # Changes that are all needed

The changes written from one pen to another hold nothing that could be left out.  Each of them does
something no other one does: a style is taken away by a single clearing, it is set once, and the
color of a layer is selected once.  What is lost without a change is told from the changes that are
left, without looking at their order: as long as none of them sets a style, it is there exactly if
it was there before and none of them clears it, and as long as none selects the color of a layer,
that color stays.
-/

namespace AnsiCanvas

namespace Change

def clears (style : Style) : Change → Bool
  | clear clearing => clearing.styles.contains style
  | reset | set _ | color _ _ => false

/-- What a change does to a style that it does not set. -/
theorem contains_apply {change : Change} {style : Style} (noReset : change ≠ reset)
    (unset : change ≠ set style) (pen : Pen) :
    (pen.apply change.standard).styles.contains style
      = (pen.styles.contains style && !change.clears style) := by
  cases change with
  | reset => contradiction
  | set other =>
    have apart : style ≠ other := fun same => unset (by rw [same])
    simp [standard, Pen.apply, clears, apart]
  | clear clearing => simp [standard, Pen.apply, clears]
  | color layer selected => cases layer <;> simp [standard, Pen.apply, Pen.withColor, clears]

/-- A change that selects no color of a layer leaves its color alone. -/
theorem color_apply {change : Change} {layer : Layer} (noReset : change ≠ reset)
    (unselected : ∀ selected, change ≠ color layer selected) (pen : Pen) :
    (pen.apply change.standard).color layer = pen.color layer := by
  cases change with
  | reset => contradiction
  | set | clear => cases layer <;> rfl
  | color other selected =>
    have apart : other ≠ layer := by
      rintro rfl
      exact unselected selected rfl
    cases other <;> cases layer <;> first | contradiction | rfl

/-- Changes are told apart by their codes, unless these lose the index of a color. -/
theorem eq_of_codes_eq {first second : Change} (firstKept : first.standard = first)
    (secondKept : second.standard = second) (codes : first.codes = second.codes) :
    first = second := by
  obtain ⟨code, tail, spelled, read⟩ := first.read_codes
  obtain ⟨other, otherTail, otherSpelled, otherRead⟩ := second.read_codes
  rw [spelled, otherSpelled] at codes
  obtain ⟨rfl, rfl⟩ := List.cons.inj codes
  have answers := (read []).symm.trans (otherRead [])
  rw [firstKept, secondKept] at answers
  exact (Prod.ext_iff.mp (Except.ok.inj answers)).1

end Change

namespace Pen

/-! ## Following changes that leave something alone -/

theorem contains_follow {changes : List Change} {style : Style} (noReset : .reset ∉ changes)
    (unset : .set style ∉ changes) (pen : Pen) :
    (pen.follow changes).styles.contains style
      = (pen.styles.contains style && !changes.any (Change.clears style)) := by
  induction changes generalizing pen with
  | nil => simp
  | cons change changes ih =>
    rw [List.mem_cons, not_or] at noReset unset
    have rest := ih noReset.2 unset.2 (pen.apply change.standard)
    rw [Change.contains_apply (Ne.symm noReset.1) (Ne.symm unset.1)] at rest
    rw [List.any_cons, Bool.not_or, ← Bool.and_assoc]
    exact rest

theorem color_follow {changes : List Change} {layer : Layer} (noReset : .reset ∉ changes)
    (unselected : ∀ selected, .color layer selected ∉ changes) (pen : Pen) :
    (pen.follow changes).color layer = pen.color layer := by
  induction changes generalizing pen with
  | nil => rfl
  | cons change changes ih =>
    simp only [List.mem_cons, not_or] at noReset unselected
    have rest := ih noReset.2 (fun selected => (unselected selected).2) (pen.apply change.standard)
    exact rest.trans (Change.color_apply (Ne.symm noReset.1)
      (fun selected => Ne.symm (unselected selected).1) pen)

/-! ## The changes between two pens -/

section Between

variable {before pen : Pen} {downsample : Bool}

theorem reset_notMem_changes : .reset ∉ pen.changes (some before) downsample := by
  simp [changes]

theorem clear_mem_changes {clearing : Clearing} :
    .clear clearing ∈ pen.changes (some before) downsample
      ↔ clearing ∈ clearings before.styles pen.styles := by
  simp [changes]

theorem set_mem_changes {style : Style} :
    .set style ∈ pen.changes (some before) downsample
      ↔ style ∈ additions before.styles pen.styles := by
  simp [changes]

theorem color_mem_changes {layer : Layer} {selected : Color} :
    .color layer selected ∈ pen.changes (some before) downsample
      ↔ selected = pen.shown downsample layer
        ∧ pen.shown downsample layer ≠ before.shown downsample layer := by
  cases layer <;> simp [changes] <;> grind

theorem mem_clearings {styles after : StyleSet} {clearing : Clearing} :
    clearing ∈ clearings styles after
      ↔ clearing ∈ Clearing.written
        ∧ ∃ style ∈ clearing.styles, styles.contains style = true
          ∧ after.contains style = false := by
  simp [clearings]

theorem mem_additions {styles after : StyleSet} {style : Style} :
    style ∈ additions styles after
      ↔ after.contains style = true ∧ (styles.contains style = false
        ∨ ∃ clearing ∈ clearings styles after, style ∈ clearing.styles) := by
  simp [additions, Style.mem_all]

/-- A style is taken away by a single one of the clearings that are written. -/
theorem clearing_unique {first second : Clearing} (firstWritten : first ∈ Clearing.written)
    (secondWritten : second ∈ Clearing.written) {style : Style}
    (ofFirst : style ∈ first.styles) (ofSecond : style ∈ second.styles) : first = second := by
  have apart : ∀ first ∈ Clearing.written, ∀ second ∈ Clearing.written, first ≠ second →
      ∀ style ∈ first.styles, style ∉ second.styles := by decide
  by_contra different
  exact apart first firstWritten second secondWritten different style ofFirst ofSecond

theorem nodup_changes (pen before : Pen) (downsample : Bool) :
    (pen.changes (some before) downsample).Nodup := by
  have clears : ((clearings before.styles pen.styles).map Change.clear).Nodup :=
    List.Nodup.map (fun _ _ => Change.clear.inj) (List.Nodup.filter _ (by decide))
  have sets : ((additions before.styles pen.styles).map Change.set).Nodup :=
    List.Nodup.map (fun _ _ => Change.set.inj) (List.Nodup.filter _ (by decide))
  -- No two of the three kinds of changes have one in common.
  rw [changes, List.nodup_append, List.nodup_append]
  refine ⟨⟨clears, sets, by simp⟩, ?_, by simp; grind⟩
  exact List.Nodup.map (fun _ _ same => (Change.color.inj same).1)
    (List.Nodup.filter _ (by decide))

theorem standard_of_mem_changes (inRange : pen.InRange) {change : Change}
    (member : change ∈ pen.changes (some before) downsample) : change.standard = change := by
  cases change with
  | reset | set | clear => rfl
  | color layer selected =>
    rw [(color_mem_changes.mp member).1, Change.standard,
      Color.standard_of_inRange (inRange.shown downsample layer)]

/-! ## What is lost without one of them -/

/-- All changes between two pens but the one that is left out. -/
def Without (pen before : Pen) (downsample : Bool) (left : Change) (rest : List Change) : Prop :=
  ∀ change, change ∈ rest ↔ change ∈ pen.changes (some before) downsample ∧ change ≠ left

variable {rest : List Change}

theorem Without.of_split {first last : List Change} {left : Change}
    (split : pen.changes (some before) downsample = first ++ left :: last) :
    Without pen before downsample left (first ++ last) := by
  have nodup := nodup_changes pen before downsample
  -- What is left out occurs nowhere else.
  rw [split, List.nodup_middle, List.nodup_cons] at nodup
  intro change
  rw [split]
  constructor
  · intro member
    refine ⟨?_, fun same => nodup.1 (same ▸ member)⟩
    rw [List.mem_append, List.mem_cons]
    rcases List.mem_append.mp member with inFirst | inLast
    · exact .inl inFirst
    · exact .inr (.inr inLast)
  · rintro ⟨member, apart⟩
    simpa [apart] using member

theorem Without.noReset {left : Change} (without : Without pen before downsample left rest) :
    .reset ∉ rest :=
  fun member => reset_notMem_changes ((without _).mp member).1

/-- Without its clearing, a style that is lost stays. -/
theorem Without.contains_of_clear {clearing : Clearing}
    (without : Without pen before downsample (.clear clearing) rest)
    (cleared : clearing ∈ clearings before.styles pen.styles) :
    ∃ style, ((before.effective downsample).follow rest).styles.contains style = true
      ∧ pen.styles.contains style = false := by
  obtain ⟨written, style, ofClearing, had, lost⟩ := mem_clearings.mp cleared
  refine ⟨style, ?_, lost⟩
  have unset : Change.set style ∉ rest := by
    intro member
    have added := set_mem_changes.mp ((without _).mp member).1
    rw [mem_additions, lost] at added
    cases added.1
  -- No other clearing among the changes takes this style away.
  have kept : rest.any (Change.clears style) = false := by
    rw [List.any_eq_false]
    intro change member clears
    cases change with
    | clear other =>
      obtain ⟨among, apart⟩ := (without _).mp member
      have otherWritten := (mem_clearings.mp (clear_mem_changes.mp among)).1
      have ofOther : style ∈ other.styles := List.contains_iff_mem.mp clears
      exact apart (congrArg _ (clearing_unique otherWritten written ofOther ofClearing))
    | reset | set | color => cases clears
  rw [contains_follow without.noReset unset, styles_effective, had, kept]
  rfl

/-- A style that is not set is not there, either from the start or since it was cleared. -/
theorem Without.contains_of_set {style : Style}
    (without : Without pen before downsample (.set style) rest)
    (added : style ∈ additions before.styles pen.styles) :
    ((before.effective downsample).follow rest).styles.contains style = false := by
  have unset : Change.set style ∉ rest := fun member => ((without _).mp member).2 rfl
  rw [contains_follow without.noReset unset, styles_effective]
  rcases (mem_additions.mp added).2 with lacked | ⟨clearing, cleared, ofClearing⟩
  · rw [lacked, Bool.false_and]
  · have clears : rest.any (Change.clears style) = true := by
      rw [List.any_eq_true]
      refine ⟨.clear clearing, ?_, List.contains_iff_mem.mpr ofClearing⟩
      exact (without _).mpr ⟨clear_mem_changes.mpr cleared, nofun⟩
    rw [clears, Bool.not_true, Bool.and_false]

/-- A layer whose color is not selected keeps its color. -/
theorem Without.color_of_color {layer : Layer} {selected : Color}
    (without : Without pen before downsample (.color layer selected) rest)
    (differs : selected = pen.shown downsample layer
      ∧ pen.shown downsample layer ≠ before.shown downsample layer) :
    ((before.effective downsample).follow rest).color layer
      ≠ (pen.effective downsample).color layer := by
  -- The layer is given its color by one change, and that is the one left out.
  have unselected : ∀ other, Change.color layer other ∉ rest := by
    intro other member
    obtain ⟨among, apart⟩ := (without _).mp member
    rw [(color_mem_changes.mp among).1, differs.1] at apart
    exact apart rfl
  rw [color_follow without.noReset unselected]
  intro same
  apply differs.2
  cases layer <;> exact same.symm

theorem Without.follow_ne {left : Change} (without : Without pen before downsample left rest)
    (member : left ∈ pen.changes (some before) downsample) :
    (before.effective downsample).follow rest ≠ pen.effective downsample := by
  intro same
  cases left with
  | reset => exact reset_notMem_changes member
  | clear clearing =>
    obtain ⟨style, stays, lost⟩ := without.contains_of_clear (clear_mem_changes.mp member)
    rw [same, styles_effective, lost] at stays
    cases stays
  | set style =>
    have added := set_mem_changes.mp member
    have absent := without.contains_of_set added
    rw [same, styles_effective, (mem_additions.mp added).1] at absent
    cases absent
  | color layer selected =>
    exact without.color_of_color (color_mem_changes.mp member) (congrArg (color · layer) same)

end Between

/-- Changes whose codes lead from one pen to another, while the codes of any list that is one
    change short lead somewhere else. -/
structure Irredundant (before : Pen) (items : List Change) (after : Pen) : Prop where
  leads : before.merge (items.flatMap Change.codes) = (after, none)
  distinct : (items.map Change.codes).Nodup
  needed : ∀ first item last, items = first ++ item :: last →
    ∃ other, before.merge ((first ++ last).flatMap Change.codes) = (other, none) ∧ other ≠ after

theorem irredundant_changes {pen before : Pen} (inRange : pen.InRange)
    (beforeInRange : before.InRange) (downsample : Bool) :
    Irredundant (before.effective downsample) (pen.changes (some before) downsample)
      (pen.effective downsample) where
  leads := by
    rw [merge_flatMap_codes, ← appearance_of_inRange inRange,
      ← appearance_of_inRange beforeInRange, follow_changes]
  distinct := by
    refine List.Nodup.map_on ?_ (nodup_changes pen before downsample)
    intro first firstMember second secondMember same
    exact Change.eq_of_codes_eq (standard_of_mem_changes inRange firstMember)
      (standard_of_mem_changes inRange secondMember) same
  needed := by
    intro first item last split
    refine ⟨_, merge_flatMap_codes _ _, (Without.of_split split).follow_ne ?_⟩
    rw [split]
    exact List.mem_append_right first List.mem_cons_self

/-! ## Nothing to change -/

/-- Two effective pens are equal if their styles are, and the colors that the layers show. -/
theorem effective_eq_iff {first second : Pen} {downsample : Bool} :
    first.effective downsample = second.effective downsample
      ↔ first.styles = second.styles
        ∧ ∀ layer, first.shown downsample layer = second.shown downsample layer := by
  rw [effective, effective, mk.injEq]
  constructor
  · rintro ⟨styles, foreground, background⟩
    exact ⟨styles, fun layer => by cases layer <;> assumption⟩
  · rintro ⟨styles, shown⟩
    exact ⟨styles, shown .foreground, shown .background⟩

theorem changes_eq_nil_iff {pen before : Pen} {downsample : Bool} :
    pen.changes (some before) downsample = []
      ↔ before.effective downsample = pen.effective downsample := by
  constructor
  · intro none
    rw [changes, List.append_eq_nil_iff, List.append_eq_nil_iff, List.map_eq_nil_iff,
      List.map_eq_nil_iff, List.map_eq_nil_iff, List.filter_eq_nil_iff] at none
    obtain ⟨⟨noClearing, noAddition⟩, noColor⟩ := none
    refine effective_eq_iff.mpr ⟨StyleSet.ext_contains fun style => ?_, fun layer => ?_⟩
    · have kept := contains_after before.styles pen.styles style
      rw [noClearing, noAddition] at kept
      simpa using kept
    · have same := noColor layer (by cases layer <;> decide)
      rw [bne_iff_ne, not_not] at same
      exact same.symm
  · intro equal
    rw [← changes_effective, Option.map_some, equal, changes_self]

theorem spell_eq_empty_iff {options : EscapeOptions} {changes : List Change} :
    spell options changes = "" ↔ changes = [] := by
  constructor
  · intro empty
    have noCodes : changes.flatMap Change.codes = [] := by
      rw [spell] at empty
      split at empty
      · assumption
      · exact absurd (String.append_eq_empty_iff.mp empty).2 (by decide)
    by_contra nonempty
    exact flatMap_codes_ne_nil nonempty noCodes
  · rintro rfl
    exact spell_nil options

/-- Between two pens nothing is written exactly if they show the same. -/
theorem escape_eq_empty_iff {pen before : Pen} {options : EscapeOptions} :
    pen.escape (some before) options = ""
      ↔ before.effective options.downsample = pen.effective options.downsample := by
  rw [escape_eq_spell, spell_eq_empty_iff, changes_eq_nil_iff]

end Pen

end AnsiCanvas
