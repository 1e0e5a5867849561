import AnsiCanvas.Text.Utf8

/-! # Outlets

Where rendered text goes.  An outlet may have limited room: it takes the bytes that
fit, in order, and refuses from there on.  Writing is a state machine on outlets
that stops at the first refusal and keeps what was received before it.
-/

namespace AnsiCanvas

/-- The room that an outlet has left, and what it says when that is used up. -/
structure Outlet.Room where
  bytes : Nat
  refusal : String
  deriving DecidableEq, Repr

structure Outlet where
  received : ByteArray := .empty
  /-- The room left; without it everything is taken. -/
  room : Option Outlet.Room := none

namespace Outlet

instance : Inhabited Outlet := ⟨{}⟩

/-- Computations that write to an outlet and may be refused, with what was said. -/
abbrev Writing := EStateM String Outlet

/-- Writes a text, or as much of it as fits before the refusal. -/
def write (text : String) : Writing Unit
  | ⟨received, none⟩ => .ok () ⟨received ++ text.toUTF8, none⟩
  | ⟨received, some room⟩ =>
    if text.utf8ByteSize ≤ room.bytes then
      .ok () ⟨received ++ text.toUTF8, some { room with bytes := room.bytes - text.utf8ByteSize }⟩
    else
      .error room.refusal
        ⟨received ++ text.toUTF8.extract 0 room.bytes, some { room with bytes := 0 }⟩

/-- What was received, as text.  A character cut in two shows as a replacement. -/
def text (outlet : Outlet) : String := Text.Utf8.text outlet.received

def collect (writing : Writing Unit) : Outlet :=
  match writing {} with
  | .ok _ outlet => outlet
  | .error _ outlet => outlet

end Outlet

end AnsiCanvas
