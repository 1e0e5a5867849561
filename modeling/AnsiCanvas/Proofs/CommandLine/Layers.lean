import AnsiCanvas.CommandLine.Arguments
import AnsiCanvas.Proofs.Settings.File

/-! # Layers of settings

The settings to convert with are the defaults, those of a file on top of them and the command line
on top of both.  A count on the command line replaces the one below it; a switch only turns on.

Only the width on top has to be positive.  That of a file may be zero if the command line gives
another.
-/

namespace AnsiCanvas.Arguments

open Json

/-- What lies below the command line: the defaults alone, or a file that gives some of the fields of
    `source`, each once, on top of them. -/
inductive HasBase (arguments : Arguments) (file : String → Option ByteArray) : Settings → Prop
  | defaults : arguments.config = none → HasBase arguments file {}
  | file {name text : String} {source : Settings} {given : List Settings.Field} :
      arguments.config = some name → file name = some text.toUTF8 →
      source.InRange → given.Nodup → SpellsObject (source.members given) text.toList →
      HasBase arguments file (({} : Settings).taking source given)

/-- What the settings are with the command line on top of `base`. -/
structure Layered (arguments : Arguments) (base settings : Settings) : Prop where
  width : settings.width = arguments.width.getD base.width
  rowBudget : settings.rowBudget = arguments.rowBudget.getD base.rowBudget
  rowLimit : settings.rowLimit = arguments.rowLimit.getD base.rowLimit
  downsample : settings.downsample = true ↔ base.downsample = true ∨ arguments.xterm256 = true
  visibleEscapes :
    settings.visibleEscapes = true ↔ base.visibleEscapes = true ∨ arguments.visibleEscapes = true
  numberRows : settings.numberRows = true ↔ base.numberRows = true ∨ arguments.debug = true
  baseline :
    settings.baseline = .carryAcrossRows
      ↔ base.baseline = .carryAcrossRows ∨ arguments.carryBaseline = true
  unhandled : settings.unhandled = .skip ↔ base.unhandled = .skip ∨ arguments.skipUnhandled = true
  strict : settings.strict = true ↔ base.strict = true ∨ arguments.strict = true

theorem override_layered (arguments : Arguments) (base : Settings) :
    arguments.Layered base (arguments.override base) where
  width := rfl
  rowBudget := rfl
  rowLimit := rfl
  downsample := Bool.or_eq_true_iff
  visibleEscapes := Bool.or_eq_true_iff
  numberRows := Bool.or_eq_true_iff
  baseline := by
    rw [override]
    cases arguments.carryBaseline <;> simp
  unhandled := by
    rw [override]
    cases arguments.skipUnhandled <;> simp
  strict := Bool.or_eq_true_iff

/-- The width is judged only after the command line has been put on top. -/
theorem settings_of_base {arguments : Arguments} {file : String → Option ByteArray}
    {base : Settings} (below : arguments.HasBase file base) :
    arguments.settings file =
      if arguments.width.getD base.width = 0 then .error (.invalidWidth 0)
      else .ok (arguments.override base) := by
  have loaded : arguments.settings file
      = (arguments.override base).validate.map fun _ => arguments.override base := by
    cases below with
    | defaults unnamed =>
      rw [Arguments.settings, unnamed]
      rfl
    | file named found inRange distinct spelled =>
      rw [Arguments.settings, named]
      dsimp only
      rw [found, Settings.ofFile_of_spellsObject inRange distinct spelled]
      rfl
  rw [loaded, Settings.validate_eq]
  -- The width of the settings on top is the one that the command line has left.
  change (if arguments.width.getD base.width = 0 then Except.error _ else Except.ok ()).map _ = _
  split <;> rfl

/-- Files replace exactly the fields they give, and settings survive being written to one; on top of
    them the command line has the last word, and the width that results must not be zero. -/
theorem settings_in_layers :
    (∀ (source : Settings) (given : List Settings.Field) (text : String),
        source.InRange → given.Nodup → SpellsObject (source.members given) text.toList →
          Settings.ofFile (some text.toUTF8) = .ok (({} : Settings).taking source given))
      ∧ (∀ settings : Settings, settings.InRange →
          Settings.ofFile (some settings.fileText.toUTF8) = .ok settings)
      ∧ ∀ (arguments : Arguments) (file : String → Option ByteArray) (base : Settings),
          arguments.HasBase file base →
            (∀ error, arguments.settings file = .error error
                ↔ error = .invalidWidth 0 ∧ arguments.width.getD base.width = 0)
              ∧ (arguments.width.getD base.width ≠ 0 →
                  ∃ settings, arguments.settings file = .ok settings
                    ∧ arguments.Layered base settings) := by
  refine ⟨fun source given text inRange distinct spelled => ?_, fun settings inRange => ?_,
    fun arguments file base below => ?_⟩
  · exact Settings.ofFile_of_spellsObject inRange distinct spelled
  · exact Settings.ofFile_fileText inRange
  · rw [settings_of_base below]
    by_cases zero : arguments.width.getD base.width = 0
    · rw [if_pos zero]
      refine ⟨fun error => ⟨fun refused => ?_, fun ⟨cause, _⟩ => cause ▸ rfl⟩, absurd zero⟩
      cases refused
      exact ⟨rfl, zero⟩
    · rw [if_neg zero]
      refine ⟨fun error => ⟨fun refused => ?_, fun ⟨_, isZero⟩ => absurd isZero zero⟩, fun _ => ?_⟩
      · cases refused
      · exact ⟨_, rfl, override_layered arguments base⟩

/-! ## A file with a width of zero -/

/-- The fields of `noWidth` that `noWidthText` gives, in its order. -/
def noWidthFields : List Settings.Field := [.unhandled, .width]

def noWidth : Settings := { width := 0, unhandled := .skip }

def noWidthText : String := "\x7b \"unhandled\":\"skip\",\n\"wid\\u0074h\": 0\x7d\n"

theorem noWidth_inRange : noWidth.InRange := ⟨by decide, by decide, by decide⟩

theorem noWidthText_spelled :
    SpellsObject (noWidth.members noWidthFields) noWidthText.toList := by
  have nothing : IsSpace [] := by decide
  have blank : IsSpace [' '] := by decide
  have newline : IsSpace ['\n'] := by decide
  -- The `t` is written by its code.
  have width : SpellsString "width" "\"wid\\u0074h\"".toList :=
    ⟨"wid\\u0074h".toList, .cons (.of_isPlain rfl) (.cons (.of_isPlain rfl)
      (.cons (.of_isPlain rfl) (.cons (.code rfl rfl rfl rfl rfl)
        (.cons (.of_isPlain rfl) .nil)))), rfl⟩
  have unhandled := SpellsMember.mk blank (Settings.spellsString_key .unhandled) nothing nothing
    (Settings.spellsScalar_fieldText noWidth .unhandled) nothing
  have zero := SpellsMember.mk newline width nothing blank
    (Settings.spellsScalar_fieldText noWidth .width) nothing
  exact .members nothing (.cons unhandled (.one zero)) newline

/-- The file is read, and its width is refused unless the command line gives another. -/
theorem settings_in_layers_of_noWidth :
    Settings.ofFile (some noWidthText.toUTF8) = .ok noWidth
      ∧ Settings.ofFile (some noWidth.fileText.toUTF8) = .ok noWidth
      ∧ (∀ error, Arguments.settings { config := some "settings.json" }
            (fun _ => some noWidthText.toUTF8) = .error error ↔ error = .invalidWidth 0)
      ∧ ∃ settings, Arguments.settings { config := some "settings.json", width := some 132 }
            (fun _ => some noWidthText.toUTF8) = .ok settings
          ∧ settings.width = 132 ∧ settings.unhandled = .skip := by
  obtain ⟨read, reread, onTop⟩ := settings_in_layers
  have below (arguments : Arguments) (named : arguments.config = some "settings.json") :
      arguments.HasBase (fun _ => some noWidthText.toUTF8)
        (({} : Settings).taking noWidth noWidthFields) :=
    .file named rfl noWidth_inRange (by decide) noWidthText_spelled
  have withoutWidth := below { config := some "settings.json" } rfl
  have withWidth := below { config := some "settings.json", width := some 132 } rfl
  refine ⟨read _ _ _ noWidth_inRange (by decide) noWidthText_spelled, reread _ noWidth_inRange,
    fun error => ?_, ?_⟩
  · rw [(onTop _ _ _ withoutWidth).1]
    exact and_iff_left rfl
  · obtain ⟨settings, loaded, layered⟩ := (onTop _ _ _ withWidth).2 (by decide)
    exact ⟨settings, loaded, layered.width, layered.unhandled.mpr (.inl rfl)⟩

end AnsiCanvas.Arguments
