import AnsiCanvas.Json.Value
import AnsiCanvas.Settings.Basic

/-! # Settings files

Settings are kept in a JSON object with a member for each of nine fields.  Fields may
be left out, other members are ignored, and no field may be given twice.  An array of
the fields' values in order is accepted too.
-/

namespace AnsiCanvas

inductive SettingsError
  | missingFile
  | notText
  | notSettings
  | invalidWidth (width : Nat)
  deriving DecidableEq, Repr

/-- The text of an error.  What is wrong with a JSON text is worded by its reader. -/
def SettingsError.message? : SettingsError → Option String
  | missingFile => some "IO error: No such file or directory (os error 2)"
  | notText => some "IO error: stream did not contain valid UTF-8"
  | notSettings => none
  | invalidWidth width => some (Settings.invalidWidthMessage width)

namespace Baseline

def name : Baseline → String
  | resetPerRow => "reset-per-row"
  | carryAcrossRows => "carry-across-rows"

def ofName? (name : String) : Option Baseline :=
  if name = resetPerRow.name then some resetPerRow
  else if name = carryAcrossRows.name then some carryAcrossRows
  else none

theorem ofName?_name (baseline : Baseline) : ofName? baseline.name = some baseline := by
  cases baseline <;> rfl

end Baseline

namespace UnhandledPolicy

def name : UnhandledPolicy → String
  | abort => "abort"
  | skip => "skip"

def ofName? (name : String) : Option UnhandledPolicy :=
  if name = abort.name then some abort
  else if name = skip.name then some skip
  else none

theorem ofName?_name (policy : UnhandledPolicy) : ofName? policy.name = some policy := by
  cases policy <;> rfl

end UnhandledPolicy

namespace Settings

inductive Field
  | width
  | rowBudget
  | downsample
  | visibleEscapes
  | numberRows
  | baseline
  | unhandled
  | strict
  | rowLimit
  deriving DecidableEq, Repr

namespace Field

/-- Every field, in the order of a settings file. -/
def all : List Field :=
  [width, rowBudget, downsample, visibleEscapes, numberRows, baseline, unhandled, strict, rowLimit]

def key : Field → String
  | width => "width"
  | rowBudget => "max_bytes_per_row"
  | downsample => "downsample_256"
  | visibleEscapes => "visible_escapes"
  | numberRows => "number_rows"
  | baseline => "baseline"
  | unhandled => "unhandled"
  | strict => "strict_terminators"
  | rowLimit => "max_rows"

def ofKey? (key : String) : Option Field := all.find? fun field => field.key == key

theorem ofKey?_key (field : Field) : ofKey? field.key = some field := by
  cases field <;> decide

end Field

def count? (value : Json.Value) : Option Nat :=
  value.natural?.filter fun count => decide (count ≤ Count.largest)

/-- The settings with one field replaced by what a value says. -/
def set? (settings : Settings) (field : Field) (value : Json.Value) : Option Settings :=
  match field with
  | .width => (count? value).map fun width => { settings with width }
  | .rowBudget => (count? value).map fun rowBudget => { settings with rowBudget }
  | .downsample => value.bool?.map fun downsample => { settings with downsample }
  | .visibleEscapes => value.bool?.map fun visibleEscapes => { settings with visibleEscapes }
  | .numberRows => value.bool?.map fun numberRows => { settings with numberRows }
  | .baseline =>
    (value.name?.bind Baseline.ofName?).map fun baseline => { settings with baseline }
  | .unhandled =>
    (value.name?.bind UnhandledPolicy.ofName?).map fun unhandled => { settings with unhandled }
  | .strict => value.bool?.map fun strict => { settings with strict }
  | .rowLimit => (count? value).map fun rowLimit => { settings with rowLimit }

/-- The settings with fields replaced by the members of an object, `given` being the
    fields that have been. -/
def setMembers? (settings : Settings) (given : List Field) :
    List (Json.Key × Json.Value) → Option Settings
  | [] => some settings
  | (none, _) :: _ => none
  | (some key, value) :: rest =>
    match Field.ofKey? key with
    | none => settings.setMembers? given rest
    | some field =>
      if field ∈ given then none
      else (settings.set? field value).bind fun settings =>
        settings.setMembers? (field :: given) rest

/-- The settings with the given fields replaced by values, as long as there are any. -/
def setItems? (settings : Settings) : List Field → List Json.Value → Option Settings
  | _, [] => some settings
  | [], _ :: _ => none
  | field :: fields, value :: rest =>
    (settings.set? field value).bind fun settings => settings.setItems? fields rest

/-- The settings that a value describes; fields left out have their defaults. -/
def ofValue? : Json.Value → Option Settings
  | .object members => setMembers? {} [] members
  | .array items => setItems? {} Field.all items
  | _ => none

/-- The settings that a text describes to a reader of JSON. -/
def ofText? (read : String → Option Json.Value) (text : String) : Option Settings :=
  (read text).bind ofValue?

def ofBytes (bytes : ByteArray) : Except SettingsError Settings :=
  match String.fromUTF8? bytes with
  | none => .error .notText
  | some text =>
    match ofText? Json.Value.ofText? text with
    | some settings => .ok settings
    | none => .error .notSettings

/-- The settings in a file, which may not exist. -/
def ofFile (content : Option ByteArray) : Except SettingsError Settings :=
  match content with
  | some bytes => ofBytes bytes
  | none => .error .missingFile

def switchText (on : Bool) : String := if on then "true" else "false"

def nameText (name : String) : String := "\"" ++ name ++ "\""

def fieldText (settings : Settings) : Field → String
  | .width => settings.width.repr
  | .rowBudget => settings.rowBudget.repr
  | .downsample => switchText settings.downsample
  | .visibleEscapes => switchText settings.visibleEscapes
  | .numberRows => switchText settings.numberRows
  | .baseline => nameText settings.baseline.name
  | .unhandled => nameText settings.unhandled.name
  | .strict => switchText settings.strict
  | .rowLimit => settings.rowLimit.repr

/-- The text of a settings file: one field a line. -/
def fileText (settings : Settings) : String :=
  let line (field : Field) := "  " ++ nameText field.key ++ ": " ++ settings.fieldText field
  "\x7b\n" ++ ",\n".intercalate (Field.all.map line) ++ "\n\x7d"

def validate (settings : Settings) : Except SettingsError Unit :=
  match settings.screenWidth? with
  | some _ => .ok ()
  | none => .error (.invalidWidth settings.width)

end Settings

end AnsiCanvas
