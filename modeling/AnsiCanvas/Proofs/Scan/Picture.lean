import AnsiCanvas.Proofs.Scan.Bounds
import AnsiCanvas.Proofs.Scan.Conversion

/-! # The picture of a document

The screen at the end of a scan is a matter of the strokes alone.  A place shows what the
last stroke over it left there, a glyph with the pen of that moment or a blank, and a
place that no stroke covered is blank.
-/

namespace AnsiCanvas

variable {width : Nat}

namespace Scan

/-- The strokes of a run in their order. -/
def strokes (settings : Settings) (bytes : List UInt8) (scan : Scan width) : List Stroke :=
  (trace settings bytes scan).flatMap fun (state, event) => (state.canvas.stroke? event).toList

/-- A run lays its strokes over what was on the screen before. -/
theorem seen_run {settings : Settings} (nonempty : 0 < width) (bytes : List UInt8)
    (scan : Scan width) (bounded : scan.canvas.Bounded settings.rowLimit) {place : Position}
    (within : place.column ≤ width) :
    (run settings bytes scan).1.canvas.screen.seen place
      = (strokes settings bytes scan).foldl (Stroke.paint place)
          (scan.canvas.screen.seen place) := by
  induction bytes generalizing scan with
  | nil => rfl
  | cons byte rest ih =>
    have stepped := canvas_step settings byte scan
    have kept := bounded_step nonempty bounded byte
    have stroke := Canvas.seen_perform settings.rowLimit (scan.event byte)
      bounded.cursor.toPositive within
    rw [← stepped] at stroke
    rw [strokes, trace, run, List.flatMap_cons, List.foldl_append, ← stroke]
    cases taken : scan.step settings byte with
    | mk next ending =>
      rw [taken] at kept
      cases ending with
      | none => exact ih next kept
      | some _ => rfl

end Scan

namespace Converter

/-- The last writer wins.  Scanning a document leaves cells exactly at the places within
    the width and the height of the screen, and each of them is as the last stroke over
    its place left it, or blank if there is none.  Events that are no strokes alter no
    cell of any canvas. -/
theorem scan_shows_last_strokes (converter : Converter) (source : Source) (listening : Bool)
    (place : Position) :
    let scan := (converter.scan source listening).1
    let strokes := Scan.strokes converter.settings source.bytes
      (Scan.start converter.settings listening)
    (scan.canvas.screen.cell? place
        = if 1 ≤ place.row ∧ place.row ≤ scan.canvas.screen.height ∧ 1 ≤ place.column
              ∧ place.column ≤ converter.settings.width then
            some (((strokes.reverse.find? (·.covers place)).map Stroke.cell).getD .blank)
          else none)
      ∧ ∀ (canvas : Canvas converter.settings.width) (event : Event) (cell : Cell),
          canvas.stroke? event = none → canvas.screen.cell? place = some cell →
          (canvas.perform converter.settings.rowLimit event).1.screen.cell? place = some cell := by
  intro scan strokes
  refine ⟨?_, fun canvas event cell none found =>
    Canvas.cell?_perform_of_stroke?_eq_none _ none found⟩
  rw [Screen.cell?_eq_seen]
  split
  · next inside =>
    have blank := Canvas.Bounded.blank converter.width_pos converter.settings.rowLimit
    have seen := Scan.seen_run converter.width_pos source.bytes
      (Scan.start converter.settings listening) blank inside.2.2.2
    have start : (Scan.start converter.settings listening).canvas.screen.seen place = .blank :=
      Screen.seen_blank place
    rw [start, Stroke.foldl_paint] at seen
    rw [← seen, ← scan_fst]
  · rfl

theorem scan_shows_drawn_and_erased :
    (scan ⟨{ width := 2 }, by decide⟩ ⟨"AB\x1b[1;2H\x1b[K".toUTF8.data.toList, none⟩
          false).1.canvas.screen.cell? ⟨1, 1⟩
        = some (.draw 'A' {})
      ∧ (scan ⟨{ width := 2 }, by decide⟩ ⟨"AB\x1b[1;2H\x1b[K".toUTF8.data.toList, none⟩
          false).1.canvas.screen.cell? ⟨2, 1⟩
        = some .blank := by
  have shows := scan_shows_last_strokes ⟨{ width := 2 }, by decide⟩
    ⟨"AB\x1b[1;2H\x1b[K".toUTF8.data.toList, none⟩ false
  exact ⟨(shows ⟨1, 1⟩).1.trans (by decide +kernel), (shows ⟨2, 1⟩).1.trans (by decide +kernel)⟩

end Converter

end AnsiCanvas
