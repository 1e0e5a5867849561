import AnsiCanvas.Proofs.Scan.Limit
import AnsiCanvas.Proofs.Scan.Output
import AnsiCanvas.Proofs.Screen.Reread

/-! # Canonical output

The output of a document is the only output of what it shows.  It can be read back into a screen,
and that screen has the same output; nor is there another screen that shows the same and is
written otherwise.
-/

namespace AnsiCanvas.Converter

/-- Documents lead to characters of the code page and to pens in range. -/
theorem fromDocument_of_scan (converter : Converter) (source : Source) (listening : Bool) :
    (converter.scan source listening).1.canvas.screen.FromDocument where
  glyphs := converter.fromCodePage_of_scan source listening
  pens row inRows cell inCells := by
    obtain ⟨place, found⟩ := Screen.exists_cell?_of_mem inRows inCells
    have blank := Canvas.Bounded.blank converter.width_pos converter.settings.rowLimit
    rw [scan_fst] at found
    exact (Scan.bounded_run converter.width_pos blank source.bytes).cells place cell found

/-- Rendering is canonical.  When every row starts anew, escapes are sent and rows have no
    budget, the screen of a document is read back from its output as a screen whose output is
    the same.  And whatever the options, screens of the same dimensions have the same output if
    their cells have the same glyphs and styles and show the same colors. -/
theorem render_canonical (converter : Converter) (source : Source) (listening strict : Bool)
    (options : RenderOptions) (resets : options.baseline = .resetPerRow)
    (sent : options.escapes.visible = false) (unlimited : options.rowBudget = 0) :
    let screen := (converter.scan source listening).1.canvas.screen
    (∃ reread : Screen converter.settings.width,
        Screen.reread? options strict (screen.render options) = some reread
          ∧ reread.render options = screen.render options)
      ∧ ∀ (width : Nat) (first second : Screen width) (options : RenderOptions),
          first.LooksLike second options.escapes.downsample →
          first.writeTo options = second.writeTo options
            ∧ first.render options = second.render options := by
  intro screen
  constructor
  · have document := converter.fromDocument_of_scan source listening
    exact ⟨_, document.reread?_render resets sent unlimited strict,
      Screen.render_effective options screen⟩
  · intro width first second options same
    have written := same.writeTo
    exact ⟨written, by rw [Screen.render, written, Screen.render]⟩

/-- Bold red is read back as the palette entry it is written as, and the color that an unset
    foreground shows is written like the same color when it is selected. -/
theorem render_canonical_of_bold_red :
    (∃ reread : Screen 1,
        Screen.reread? { numberRows := true, escapes := { downsample := true } } true
            "\x1b[0m    1: \x1b[1;38;5;203;48;5;16mA\x1b[0m|\n" = some reread
          ∧ reread.render { numberRows := true, escapes := { downsample := true } }
            = "\x1b[0m    1: \x1b[1;38;5;203;48;5;16mA\x1b[0m|\n")
      ∧ Screen.render { rowBudget := 12 } (⟨#[⟨#v[.draw 'A' {}]⟩]⟩ : Screen 1)
        = Screen.render { rowBudget := 12 } ⟨#[⟨#v[.draw 'A' ⟨{}, .classic 7, .classic 0⟩]⟩]⟩ := by
  obtain ⟨rereads, alike⟩ := render_canonical ⟨{ width := 1, rowLimit := 1 }, by decide⟩
    ⟨"\x1b[1;31mA".toUTF8.data.toList, none⟩ false true
    { numberRows := true, escapes := { downsample := true } } rfl rfl rfl
  have output : Screen.render { numberRows := true, escapes := { downsample := true } }
      (scan ⟨{ width := 1, rowLimit := 1 }, by decide⟩
        ⟨"\x1b[1;31mA".toUTF8.data.toList, none⟩ false).1.canvas.screen
      = "\x1b[0m    1: \x1b[1;38;5;203;48;5;16mA\x1b[0m|\n" := by
    rw [Screen.render_eq]
    decide +kernel
  rw [output] at rereads
  exact ⟨rereads, (alike 1 _ _ _ (Screen.looksLike_iff.mpr (by decide +kernel))).2⟩

end AnsiCanvas.Converter
