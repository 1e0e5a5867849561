import AnsiCanvas.Proofs.Pen.Merge

/-! # What a pen looks like

Two pens look alike when they have the same styles and their layers show the same
colors.  The changes that are written from one pen to another, followed from the
appearance of the one, lead to the appearance of the other.

The styles are where this could go wrong.  A clearing may take away a style that stays,
and such a style has to be set again after all clearings.
-/

namespace AnsiCanvas.Pen

/-- The pen that a terminal draws with: the same styles, and the colors that the layers
    show as their codes are understood. -/
def appearance (pen : Pen) (downsample : Bool) : Pen where
  styles := pen.styles
  foreground := (pen.shown downsample .foreground).standard
  background := (pen.shown downsample .background).standard

/-! ## Following changes of one kind -/

theorem follow_clears (pen : Pen) (clearings : List Clearing) :
    ∃ styles, pen.follow (clearings.map .clear) = { pen with styles }
      ∧ ∀ style, styles.contains style
          = (pen.styles.contains style
              && !clearings.any fun clearing => clearing.styles.contains style) := by
  induction clearings generalizing pen with
  | nil => exact ⟨pen.styles, rfl, by simp⟩
  | cons clearing clearings ih =>
    obtain ⟨styles, followed, contains⟩ := ih { pen with styles := clearing.apply pen.styles }
    refine ⟨styles, followed, fun style => ?_⟩
    rw [contains, Clearing.contains_apply, List.any_cons, Bool.not_or, Bool.and_assoc]

theorem follow_sets (pen : Pen) (added : List Style) :
    ∃ styles, pen.follow (added.map .set) = { pen with styles }
      ∧ ∀ style, styles.contains style = (pen.styles.contains style || added.contains style) := by
  induction added generalizing pen with
  | nil => exact ⟨pen.styles, rfl, by simp⟩
  | cons first added ih =>
    obtain ⟨styles, followed, contains⟩ := ih { pen with styles := pen.styles.insert first }
    refine ⟨styles, followed, fun style => ?_⟩
    rw [contains, StyleSet.contains_insert, List.contains_cons, Bool.or_assoc]
    rfl

/-- Selecting the colors of the layers that differ gives every layer its color. -/
theorem follow_colors (pen : Pen) (selected : Layer → Color) (differs : Layer → Bool)
    (same : ∀ layer, differs layer = false → pen.color layer = (selected layer).standard) :
    pen.follow (([Layer.foreground, .background].filter differs).map
        fun layer => .color layer (selected layer))
      = ⟨pen.styles, (selected .foreground).standard, (selected .background).standard⟩ := by
  obtain ⟨styles, front, back⟩ := pen
  have frontSame : differs .foreground = false → front = (selected .foreground).standard :=
    same .foreground
  have backSame : differs .background = false → back = (selected .background).standard :=
    same .background
  cases frontDiffers : differs .foreground <;> cases backDiffers : differs .background <;>
    simp [follow, apply, withColor, Change.standard, frontDiffers, backDiffers, frontSame, backSame]

/-! ## From one pen to another -/

theorem exists_written_clearing (style : Style) :
    ∃ clearing ∈ Clearing.written, style ∈ clearing.styles := by
  cases style <;> decide

theorem any_clearings_of_lost {before after : StyleSet} {style : Style}
    (had : before.contains style = true) (lost : after.contains style = false) :
    (clearings before after).any (fun clearing => clearing.styles.contains style) = true := by
  obtain ⟨clearing, written, member⟩ := exists_written_clearing style
  rw [List.any_eq_true]
  refine ⟨clearing, ?_, by simpa using member⟩
  rw [clearings, List.mem_filter]
  refine ⟨written, List.any_eq_true.mpr ⟨style, member, ?_⟩⟩
  simp [had, lost]

theorem contains_additions (before after : StyleSet) (style : Style) :
    (additions before after).contains style
      = (after.contains style && (!before.contains style
          || (clearings before after).any fun clearing => clearing.styles.contains style)) := by
  rw [Bool.eq_iff_iff, List.contains_iff_mem, additions, List.mem_filter]
  simp [Style.mem_all]

/-- After the clearings and the additions a style is there exactly if it is wanted. -/
theorem contains_after (before after : StyleSet) (style : Style) :
    ((before.contains style
        && !(clearings before after).any fun clearing => clearing.styles.contains style)
      || (additions before after).contains style) = after.contains style := by
  rw [contains_additions]
  cases had : before.contains style <;> cases wanted : after.contains style
  · simp
  · simp
  · -- The style is lost, so some clearing takes it away and nothing sets it again.
    simp only [any_clearings_of_lost had wanted, Bool.not_true, Bool.and_false, Bool.false_and,
      Bool.or_false]
  · -- The style stays.  It is set again exactly if a clearing took it away on the side.
    cases (clearings before after).any fun clearing => clearing.styles.contains style <;> rfl

/-- The changes from one pen to another lead from the appearance of the one to that of
    the other. -/
theorem follow_changes (pen before : Pen) (downsample : Bool) :
    (before.appearance downsample).follow (pen.changes (some before) downsample)
      = pen.appearance downsample := by
  simp only [changes, follow_append]
  obtain ⟨cleared, followedClears, containsCleared⟩ :=
    follow_clears (before.appearance downsample) (clearings before.styles pen.styles)
  rw [followedClears]
  obtain ⟨styles, followedSets, contains⟩ :=
    follow_sets { before.appearance downsample with styles := cleared }
      (additions before.styles pen.styles)
  have wanted : styles = pen.styles := by
    apply StyleSet.ext_contains
    intro style
    rw [contains, containsCleared]
    exact contains_after before.styles pen.styles style
  rw [followedSets, wanted]
  apply follow_colors
  -- A layer that is left out shows its color already.
  intro layer equal
  have shown : pen.shown downsample layer = before.shown downsample layer := by
    simpa using equal
  rw [shown]
  cases layer <;> rfl

/-- The changes that make a pen out of none lead from the plain pen to its appearance. -/
theorem follow_changes_none (pen : Pen) (downsample : Bool) :
    plain.follow (pen.changes none downsample) = pen.appearance downsample := by
  simp only [changes, follow_append]
  obtain ⟨styles, followed, contains⟩ :=
    follow_sets plain (Style.all.filter pen.styles.contains)
  have wanted : styles = pen.styles := by
    apply StyleSet.ext_contains
    intro style
    have empty : plain.styles.contains style = false := StyleSet.contains_empty style
    rw [contains, empty, Bool.false_or, Bool.eq_iff_iff, List.contains_iff_mem, List.mem_filter]
    simp [Style.mem_all]
  rw [followed, wanted]
  exact follow_colors { plain with styles := pen.styles } (pen.shown downsample) (fun _ => true)
    (by simp)

end AnsiCanvas.Pen
