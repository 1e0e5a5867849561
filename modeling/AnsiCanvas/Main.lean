import AnsiCanvas.CommandLine.Program

/-! # The command

Reads what the program may need, runs it, and prints what it reports.
-/

namespace AnsiCanvas.Main

partial def readAll (stream : IO.FS.Stream) (read : ByteArray) : IO ByteArray := do
  let chunk ← stream.read 65536
  if chunk.isEmpty then pure read else readAll stream (read ++ chunk)

def readFile? (path : String) : IO (Option ByteArray) := do
  try
    pure (some (← IO.FS.readBinFile path))
  catch _ =>
    pure none

/-- The files that arguments name, and standard input if they call for it. -/
def look (arguments : Arguments) : IO Surroundings := do
  let documents := Program.documents arguments
  let paths := arguments.config.toList ++ documents.filter (!Path.isStandardInput ·)
  let files ← paths.mapM fun path => do pure (path, ← readFile? path)
  let standardInput ←
    if documents.any Path.isStandardInput then readAll (← IO.getStdin) .empty else pure .empty
  pure ⟨standardInput, fun path => (files.lookup path).join⟩

/-- Says an entry in its own words, or else shows it as it is. -/
def say (entry : LogEntry) : IO Unit := IO.eprintln (entry.message?.getD (reprStr entry))

end AnsiCanvas.Main

open AnsiCanvas in
def main (words : List String) : IO UInt32 := do
  let surroundings ← match Arguments.ofWords words with
    | .ok arguments => Main.look arguments
    | .error _ => pure ⟨.empty, fun _ => none⟩
  let report := Program.run words surroundings
  report.log.forM Main.say
  IO.print report.output
  pure report.exitCode
