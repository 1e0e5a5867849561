/-! # Hexadecimal bytes -/

namespace AnsiCanvas.Text

/-- A byte as two lower-case hexadecimal digits after `0x`. -/
def hexByte (byte : UInt8) : String :=
  "0x" ++ (Nat.digitChar (byte.toNat / 16)).toString ++ (Nat.digitChar (byte.toNat % 16)).toString

/-- The value of a hexadecimal digit of either case. -/
def hexDigit? (c : Char) : Option Nat :=
  if '0' ≤ c ∧ c ≤ '9' then some (c.toNat - '0'.toNat)
  else if 'a' ≤ c ∧ c ≤ 'f' then some (c.toNat - 'a'.toNat + 10)
  else if 'A' ≤ c ∧ c ≤ 'F' then some (c.toNat - 'A'.toNat + 10)
  else none

end AnsiCanvas.Text
