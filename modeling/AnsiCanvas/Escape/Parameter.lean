import AnsiCanvas.Text.Blank

/-! # Escape parameters

One parameter of a control sequence.  Numbers may have any number of digits; their
value is held at the largest 32-bit number.
-/

namespace AnsiCanvas

/-- What stands between two semicolons. -/
inductive Parameter
  /-- Nothing but blanks. -/
  | absent
  | number (value : Nat)
  | invalid
  deriving DecidableEq, Repr

namespace Parameter

def largest : Nat := 0xFFFFFFFF

/-- The value of a number with one more digit, held at `largest` after the shift and
    after the sum. -/
def addDigit (value : Nat) (digit : Char) : Nat :=
  min (min (value * 10) largest + (digit.toNat - '0'.toNat)) largest

def read (text : List Char) : Parameter :=
  match Text.trim text with
  | [] => absent
  | digits => if digits.all Char.isDigit then number (digits.foldl addDigit 0) else invalid

/-- The parameter's value, or one if it is not a positive number. -/
def positive : Parameter → Nat
  | number value => max value 1
  | _ => 1

end Parameter

end AnsiCanvas
