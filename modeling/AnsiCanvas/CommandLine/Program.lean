import AnsiCanvas.CommandLine.Arguments
import AnsiCanvas.CommandLine.Surroundings
import AnsiCanvas.Converter

/-! # The program

What a run of the command prints and how it ends, as a function of its words, its
standard input and the files there are.  Documents are converted in order, each
followed by an empty line; the first failure ends the run with a reset.
-/

namespace AnsiCanvas

/-- What a run says on standard error, from warnings on. -/
inductive LogEntry
  | usage (error : UsageError)
  | settings (error : SettingsError)
  | unreadable (path : String)
  | failure (cause : Failure)
  | diagnostic (notice : Notice)
  deriving DecidableEq, Repr

/-- The text of an entry, where it is the program's own: usage errors are worded by the reader of
    words, and unreadable documents by the system. -/
def LogEntry.message? : LogEntry → Option String
  | usage _ | unreadable _ => none
  | settings error => error.message?
  | failure cause => some cause.message
  | diagnostic notice => some notice.diagnostic.message

structure Report where
  exitCode : UInt32
  output : String
  log : List LogEntry := []

namespace Program

def versionText : String := "ansiart2utf8 0.1.0\n"

def helpText : String :=
  "Convert CP437 ANSI art into UTF-8 terminal output\n\n" ++
  "Usage: ansiart2utf8 [OPTIONS] [FILE]...\n\n" ++
  "Arguments:\n" ++
  "  [FILE]...  Input files, `-` for stdin\n\n" ++
  "Options:\n" ++
  "  -c, --config <FILE>    Path to a JSON config file\n" ++
  "  -w, --width <COLS>     Screen width in columns\n" ++
  "  -x, --xterm256         Render classic colors as xterm 256-color indices\n" ++
  "      --bytes <N>        Maximum output bytes per row, 0 = unlimited\n" ++
  "      --debug            Log diagnostics and number the output rows\n" ++
  "      --visible-escapes  Show emitted escapes as visible text\n" ++
  "      --carry-baseline   Diff each row's first cell against the previous row\n" ++
  "      --skip-unhandled   " ++
    "Skip well-formed escapes that have no handler instead of aborting\n" ++
  "      --strict           Abort on escape sequences ending in an unknown terminator\n" ++
  "      --max-rows <N>     Maximum number of rows the screen may grow to, 0 = unlimited\n" ++
  "  -h, --help             Print help\n" ++
  "  -V, --version          Print version\n"

/-- The documents of a run: the named ones, or standard input if none is named. -/
def documents (arguments : Arguments) : List String :=
  if arguments.files.isEmpty then ["-"] else arguments.files.toList

/-- The end of a run that has printed `output`. -/
def failed (output : String) (log : List LogEntry) (cause : LogEntry) : Report :=
  ⟨1, output ++ resetEscape, log ++ [cause]⟩

/-- Converts documents in order, `output` and `log` being what has been printed and logged.
    Diagnostics are logged when the run is `listening`. -/
def convertAll (converter : Converter) (listening : Bool) (output : String)
    (log : List LogEntry) : List String → Surroundings → Report
  | [], _ => ⟨0, output, log⟩
  | path :: rest, surroundings =>
    match surroundings.document? path with
    | none => failed output log (.unreadable path)
    | some bytes =>
      let outcome := converter.convert ⟨bytes.toList, none⟩ {} listening
      -- Whatever has been written of a document is printed, also if it fails.
      let output := output ++ outcome.outlet.text
      let log := log ++ outcome.notices.toList.map .diagnostic
      match outcome.result with
      | .error failure => failed output log (.failure failure)
      | .ok summary =>
        convertAll converter listening (output ++ "\n") log rest
          (surroundings.after path summary.bytesRead)

def runWith (arguments : Arguments) (surroundings : Surroundings) : Report :=
  match arguments.settings surroundings.file with
  | .error error => failed "" [] (.settings error)
  | .ok settings =>
    match Converter.ofSettings settings with
    | .error failure => failed "" [] (.failure failure)
    | .ok converter =>
      convertAll converter arguments.debug "" [] (documents arguments) surroundings

def run (words : List String) (surroundings : Surroundings) : Report :=
  match Arguments.ofWords words with
  | .error .helpWanted => ⟨0, helpText, []⟩
  | .error .versionWanted => ⟨0, versionText, []⟩
  | .error error => ⟨2, "", [.usage error]⟩
  | .ok arguments => runWith arguments surroundings

end Program

end AnsiCanvas
