import AnsiCanvas.Settings.Basic
import AnsiCanvas.Text.Hex

/-! # Failures

What a conversion cannot recover from.
-/

namespace AnsiCanvas

/-- Why there is no complete output. -/
inductive Failure
  | unknownTerminator (byte : UInt8) (offset : Nat)
  | unhandledCommand (letter : UInt8) (offset : Nat)
  | read (offset : Nat) (cause : String)
  | write (cause : String)
  | invalidWidth (width : Nat)
  deriving DecidableEq, Repr

namespace Failure

/-- The offset of the byte that failed, if the failure is that of a byte. -/
def offset? : Failure → Option Nat
  | unknownTerminator _ offset | unhandledCommand _ offset | read offset _ => some offset
  | write _ | invalidWidth _ => none

def message : Failure → String
  | unknownTerminator byte offset =>
    "unknown escape terminator " ++ Text.hexByte byte ++ " at byte offset " ++ offset.repr
  | unhandledCommand letter offset =>
    "unhandled escape command '" ++ (Char.ofNat letter.toNat).toString ++ "' at byte offset "
      ++ offset.repr
  | read offset cause => "read failed at byte offset " ++ offset.repr ++ ": " ++ cause
  | write cause => "write failed: " ++ cause
  | invalidWidth width => Settings.invalidWidthMessage width

end Failure

end AnsiCanvas
