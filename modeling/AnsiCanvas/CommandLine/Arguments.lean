import AnsiCanvas.Settings.File

/-! # Command line arguments

Words are options or names of files.  A value is looked at only when the next thing
on the command line is acted upon, or at the end of it: so an unknown option is
reported before a bad value in front of it, and a request for help after one.
-/

namespace AnsiCanvas

structure Arguments where
  config : Option String := none
  width : Option Nat := none
  rowBudget : Option Nat := none
  rowLimit : Option Nat := none
  xterm256 : Bool := false
  debug : Bool := false
  visibleEscapes : Bool := false
  carryBaseline : Bool := false
  skipUnhandled : Bool := false
  strict : Bool := false
  /-- The documents in order; `-` is standard input. -/
  files : Array String := #[]
  deriving DecidableEq, Repr

/-- Why the words make no arguments, or what they ask for instead. -/
inductive UsageError
  | unknownArgument
  /-- A value is missing, or is empty where a file is named. -/
  | invalidValue
  | valueValidation
  | argumentConflict
  | tooManyValues
  | helpWanted
  | versionWanted
  deriving DecidableEq, Repr

namespace Arguments

/-- An option that is on when it is given. -/
inductive Switch
  | xterm256
  | debug
  | visibleEscapes
  | carryBaseline
  | skipUnhandled
  | strict
  deriving DecidableEq, Repr

inductive Valued
  | config
  | width
  | rowBudget
  | rowLimit
  deriving DecidableEq, Repr

inductive OptionName
  | switch (switch : Switch)
  | valued (valued : Valued)
  | help
  | version
  deriving DecidableEq, Repr

def OptionName.ofLong? : String → Option OptionName
  | "config" => some (.valued .config)
  | "width" => some (.valued .width)
  | "bytes" => some (.valued .rowBudget)
  | "max-rows" => some (.valued .rowLimit)
  | "xterm256" => some (.switch .xterm256)
  | "debug" => some (.switch .debug)
  | "visible-escapes" => some (.switch .visibleEscapes)
  | "carry-baseline" => some (.switch .carryBaseline)
  | "skip-unhandled" => some (.switch .skipUnhandled)
  | "strict" => some (.switch .strict)
  | "help" => some .help
  | "version" => some .version
  | _ => none

def OptionName.ofShort? : Char → Option OptionName
  | 'c' => some (.valued .config)
  | 'w' => some (.valued .width)
  | 'x' => some (.switch .xterm256)
  | 'h' => some .help
  | 'V' => some .version
  | _ => none

def isOn (arguments : Arguments) : Switch → Bool
  | .xterm256 => arguments.xterm256
  | .debug => arguments.debug
  | .visibleEscapes => arguments.visibleEscapes
  | .carryBaseline => arguments.carryBaseline
  | .skipUnhandled => arguments.skipUnhandled
  | .strict => arguments.strict

def turnOn (arguments : Arguments) : Switch → Arguments
  | .xterm256 => { arguments with xterm256 := true }
  | .debug => { arguments with debug := true }
  | .visibleEscapes => { arguments with visibleEscapes := true }
  | .carryBaseline => { arguments with carryBaseline := true }
  | .skipUnhandled => { arguments with skipUnhandled := true }
  | .strict => { arguments with strict := true }

def give (arguments : Arguments) (switch : Switch) : Except UsageError Arguments :=
  if arguments.isOn switch then .error .argumentConflict else .ok (arguments.turnOn switch)

/-- The count that a word spells: decimal digits, perhaps after a plus sign. -/
def count? (word : List Char) : Option Nat :=
  let digits := match word with
    | '+' :: rest => rest
    | _ => word
  if digits.isEmpty || !digits.all Char.isDigit then none
  else (some (Nat.ofDigitChars 10 digits 0)).filter fun count => decide (count ≤ Count.largest)

def isGiven (arguments : Arguments) : Valued → Bool
  | .config => arguments.config.isSome
  | .width => arguments.width.isSome
  | .rowBudget => arguments.rowBudget.isSome
  | .rowLimit => arguments.rowLimit.isSome

def assign (arguments : Arguments) (value : List Char) : Valued → Except UsageError Arguments
  | .config =>
    if value.isEmpty then .error .invalidValue
    else .ok { arguments with config := some (String.ofList value) }
  | .width => counted fun count => { arguments with width := some count }
  | .rowBudget => counted fun count => { arguments with rowBudget := some count }
  | .rowLimit => counted fun count => { arguments with rowLimit := some count }
where
  counted (change : Nat → Arguments) : Except UsageError Arguments :=
    match count? value with
    | some count => .ok (change count)
    | none => .error .valueValidation

def giveValue (arguments : Arguments) (valued : Valued) (value : List Char) :
    Except UsageError Arguments :=
  if arguments.isGiven valued then .error .argumentConflict else arguments.assign value valued

/-- Words that have been taken and not yet been acted upon. -/
inductive Pending
  | nothing
  | awaiting (valued : Valued)
  | value (valued : Valued) (word : List Char)
  | files (names : Array String)
  deriving DecidableEq, Repr

structure Reader where
  arguments : Arguments := {}
  pending : Pending := .nothing
  /-- Whether all further words are names of documents. -/
  onlyFiles : Bool := false

namespace Reader

/-- Acts upon the words that have been taken. -/
def settle (reader : Reader) : Except UsageError Arguments :=
  let arguments := reader.arguments
  match reader.pending with
  | .nothing => .ok arguments
  | .awaiting _ => .error .invalidValue
  | .value valued word => arguments.giveValue valued word
  | .files names =>
    if names.contains "" then .error .invalidValue
    else .ok { arguments with files := arguments.files ++ names }

def takeFile (reader : Reader) (name : String) : Except UsageError Reader :=
  match reader.pending with
  | .files names => .ok { reader with pending := .files (names.push name) }
  | _ => reader.settle.map fun arguments =>
    { reader with arguments, pending := .files #[name] }

def takeOption (reader : Reader) (option : OptionName) : Except UsageError Reader := do
  let arguments ← reader.settle
  match option with
  | .switch switch =>
    pure { reader with arguments := ← arguments.give switch, pending := .nothing }
  | .valued valued => pure { reader with arguments, pending := .awaiting valued }
  | .help => throw .helpWanted
  | .version => throw .versionWanted

/-- Takes an option with its value in the same word. -/
def takeValue (reader : Reader) (valued : Valued) (value : List Char) :
    Except UsageError Reader := do
  let arguments ← reader.settle
  pure { reader with arguments := ← arguments.giveValue valued value, pending := .nothing }

/-- Takes a word that begins with two dashes, without those. -/
def takeLong (reader : Reader) (word : List Char) : Except UsageError Reader :=
  match OptionName.ofLong? (String.ofList (word.takeWhile (· != '='))),
      word.dropWhile (· != '=') with
  | none, _ => .error .unknownArgument
  | some option, [] => reader.takeOption option
  | some (.valued valued), _ :: value => reader.takeValue valued value
  | some _, _ :: _ => .error .tooManyValues

/-- Takes the letters of a word that begins with one dash.  What follows an option
    with a value is that value, an equals sign in front aside. -/
def takeShort (reader : Reader) : List Char → Except UsageError Reader
  | [] => .ok reader
  | letter :: rest =>
    match OptionName.ofShort? letter, rest with
    | none, _ => .error .unknownArgument
    | some (.valued valued), '=' :: value => reader.takeValue valued value
    | some (.valued valued), first :: others => reader.takeValue valued (first :: others)
    | some option, rest => do takeShort (← reader.takeOption option) rest

def take (reader : Reader) (word : String) : Except UsageError Reader :=
  if reader.onlyFiles then reader.takeFile word
  else
    match word.toList, reader.pending with
    | ['-', '-'], _ => .ok { reader with onlyFiles := true }
    | '-' :: '-' :: name, _ => reader.takeLong name
    | '-' :: letter :: rest, _ => reader.takeShort (letter :: rest)
    | characters, .awaiting valued =>
      .ok { reader with pending := .value valued characters }
    | _, _ => reader.takeFile word

end Reader

def ofWords (words : List String) : Except UsageError Arguments := do
  (← words.foldlM Reader.take {}).settle

/-- The settings with what the command line says on top.  Switches only turn on. -/
def override (arguments : Arguments) (settings : Settings) : Settings where
  width := arguments.width.getD settings.width
  rowBudget := arguments.rowBudget.getD settings.rowBudget
  downsample := settings.downsample || arguments.xterm256
  visibleEscapes := settings.visibleEscapes || arguments.visibleEscapes
  numberRows := settings.numberRows || arguments.debug
  baseline := if arguments.carryBaseline then .carryAcrossRows else settings.baseline
  unhandled := if arguments.skipUnhandled then .skip else settings.unhandled
  strict := settings.strict || arguments.strict
  rowLimit := arguments.rowLimit.getD settings.rowLimit

/-- The settings to convert with: those of the settings file if one is named, else the
    defaults, with the command line on top.  `file` looks a file up. -/
def settings (arguments : Arguments) (file : String → Option ByteArray) :
    Except SettingsError Settings := do
  let base ← match arguments.config with
    | some name => Settings.ofFile (file name)
    | none => .ok {}
  let settings := arguments.override base
  settings.validate
  pure settings

end Arguments

end AnsiCanvas
