import AnsiCanvas.Proofs.Pen.Irredundant
import AnsiCanvas.Proofs.Screen.OneRow

/-! # Rows with no escape too many

The escape between two cells is made of changes that are all needed, and where the cells show the
same pen there is none.  So when every row starts anew and there is no budget, the escapes in a row
stand, after the first cell, exactly where the row starts to show another pen.
-/

namespace AnsiCanvas.Screen

variable {width : Nat}

/-- Escapes carry nothing redundant.  The escape from one pen to another spells changes of styles
    and colors of which no two have the same codes.  All of them lead from the one effective pen to
    the other, and without any of them the codes that are left lead elsewhere.  In particular there
    is no escape exactly if the effective pens agree.  So in rows that start anew, and without a
    budget, a cell after the first has an escape before its glyph exactly if its effective pen is
    not that of the cell to its left. -/
theorem escapes_are_irredundant (escapes : EscapeOptions) :
    (∀ before pen : Pen, before.InRange → pen.InRange →
        ∃ items, pen.escape (some before) escapes = Pen.spell escapes items
          ∧ .reset ∉ items
          ∧ Pen.Irredundant (before.effective escapes.downsample) items
              (pen.effective escapes.downsample))
      ∧ (∀ before pen : Pen, pen.escape (some before) escapes = ""
          ↔ before.effective escapes.downsample = pen.effective escapes.downsample)
      ∧ ∀ (options : RenderOptions) (screen : Screen width),
          screen.writeTo
                { options with rowBudget := 0, baseline := .resetPerRow, escapes := escapes }
              = Outlet.write (String.join (screen.rows.toList.mapIdx fun index row =>
                  Row.framed options (index + 1)
                    (String.join (Row.texts escapes none row.cells.toList))))
            ∧ ∀ row ∈ screen.rows, ∀ column left cell, row.cell? column = some left →
                row.cell? (column + 1) = some cell →
                (Row.texts escapes none row.cells.toList)[column + 1]?
                    = some (cell.pen.escape (some left.pen) escapes ++ cell.glyph.toString)
                  ∧ (cell.pen.escape (some left.pen) escapes ≠ ""
                    ↔ cell.pen.effective escapes.downsample
                      ≠ left.pen.effective escapes.downsample) := by
  refine ⟨fun before pen beforeInRange inRange => ?_, fun before pen => Pen.escape_eq_empty_iff,
    fun options screen => ⟨?_, fun row _ column left cell isLeft isCell => ⟨?_, ?_⟩⟩⟩
  · exact ⟨_, Pen.escape_eq_spell pen (some before) escapes, Pen.reset_notMem_changes,
      Pen.irredundant_changes inRange beforeInRange escapes.downsample⟩
  · exact writeTo_of_resetPerRow rfl (fun row => Row.content_eq_join_texts rfl none row) screen
  · rw [Row.cell?, ← Vector.getElem?_toList] at isLeft isCell
    rw [Row.getElem?_texts, isCell, Row.penBefore, isLeft]
    rfl
  · rw [ne_eq, Pen.escape_eq_empty_iff, eq_comm]

/-- From bold and faint to faint alone: the clearing takes both, so faint is set again.  Before a
    third cell that is faint too there is no escape. -/
theorem escapes_are_irredundant_across_shared_clearing :
    ∃ items, Pen.escape { styles := ⟨2⟩ } (some { styles := ⟨3⟩ }) {} = Pen.spell {} items
      ∧ Pen.spell {} items = "\x1b[22;2m"
      ∧ Pen.Irredundant (Pen.effective { styles := ⟨3⟩ } false) items
          (Pen.effective { styles := ⟨2⟩ } false)
      ∧ (Row.texts {} none [.draw 'A' { styles := ⟨3⟩ }, .draw 'B' { styles := ⟨2⟩ },
          .draw 'C' { styles := ⟨2⟩ }])[2]? = some "C" := by
  obtain ⟨pens, -, rows⟩ := @escapes_are_irredundant 3 {}
  obtain ⟨items, spelled, -, irredundant⟩ :=
    pens { styles := ⟨3⟩ } { styles := ⟨2⟩ } ⟨trivial, trivial⟩ ⟨trivial, trivial⟩
  refine ⟨items, spelled, spelled.symm.trans (by decide), irredundant, ?_⟩
  let row : Row 3 := ⟨#v[.draw 'A' { styles := ⟨3⟩ }, .draw 'B' { styles := ⟨2⟩ },
    .draw 'C' { styles := ⟨2⟩ }]⟩
  obtain ⟨text, written⟩ := (rows {} ⟨#[row]⟩).2 row (by simp) 1 _ _ rfl rfl
  have empty : Pen.escape { styles := ⟨2⟩ } (some { styles := ⟨2⟩ }) {} = "" :=
    by_contra fun nonempty => written.mp nonempty rfl
  exact text.trans (congrArg (fun escape => some (escape ++ "C")) empty)

end AnsiCanvas.Screen
