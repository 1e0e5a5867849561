import AnsiCanvas.CommandLine.Path

/-! # Surroundings

What a run can read: files, and a standard input that is read in blocks.  A document
takes whole blocks, so of two documents on standard input the second begins with a
block, and what followed the end of the first within its last block is lost.
-/

namespace AnsiCanvas

structure Surroundings where
  standardInput : ByteArray := .empty
  /-- The content of the file at a path, if it can be read. -/
  file : String → Option ByteArray

namespace Surroundings

/-- A run in a directory that holds files of the given names and nothing else.  Outside
    of it there are two devices: one is standard input, and the other is empty. -/
def inDirectory (standardInput : ByteArray) (content : String → Option ByteArray) :
    Surroundings where
  standardInput
  file path := (Path.shortest? path).bind fun path =>
    if path = "/dev/null" then some .empty
    else if path = Path.standardInputDevice then some standardInput
    else content path

def blockSize : Nat := 8192

/-- What can be read once a number of bytes was taken from standard input: the blocks
    that hold none of them. -/
def skip (surroundings : Surroundings) (taken : Nat) : Surroundings :=
  let used := (taken + (blockSize - 1)) / blockSize * blockSize
  let standardInput := surroundings.standardInput
  { surroundings with standardInput := standardInput.extract used standardInput.size }

def document? (surroundings : Surroundings) (path : String) : Option ByteArray :=
  if Path.isStandardInput path then some surroundings.standardInput else surroundings.file path

/-- What can be read after a document, of which a number of bytes was taken. -/
def after (surroundings : Surroundings) (path : String) (taken : Nat) : Surroundings :=
  if Path.isStandardInput path then surroundings.skip taken else surroundings

end Surroundings

end AnsiCanvas
