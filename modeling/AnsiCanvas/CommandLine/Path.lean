/-! # Paths

A path is a way through directories, a step at a time, with a slash between two steps.
Empty steps and dots stay where they are, so one file has many paths.
-/

namespace AnsiCanvas.Path

def steps (path : String) : List String := (path.toList.splitOn '/').map String.ofList

/-- Whether a step leads nowhere else. -/
def staysPut (step : String) : Bool := step = "" || step = "."

/-- The most bytes that a path to a file may have.  What is longer leads nowhere. -/
def largestSize : Nat := 4095

/-- The shortest path to the same file, if a file can be there: a path may be too long,
    and where the last step stays put there can only be a directory. -/
def shortest? (path : String) : Option String :=
  let steps := Path.steps path
  if largestSize < path.utf8ByteSize || steps.getLast?.all staysPut then none
  else
    let root := if steps.head? = some "" then "/" else ""
    some (root ++ "/".intercalate (steps.filter fun step => !staysPut step))

/-- Whether a path is a dash, with nothing but steps that stay put behind it.  With such a
    step before the dash it is the path of a file. -/
def isDash (path : String) : Bool :=
  match steps path with
  | [] => false
  | first :: rest => first = "-" && rest.all staysPut

def standardInputDevice : String := "/dev/stdin"

/-- Whether a path stands for standard input where a document is asked for. -/
def isStandardInput (path : String) : Bool :=
  isDash path || shortest? path = some standardInputDevice

end AnsiCanvas.Path
