/-! # Counts of limited size

Coordinates, limits and offsets are 64-bit counts.  A sum or product that would
leave that range mostly stays at its largest member instead, so that a far away
position remains far away.  Where it is not held there, it has no result.
-/

namespace AnsiCanvas.Count

def largest : Nat := 0xFFFFFFFFFFFFFFFF

/-- The sum of two counts, held at `largest`. -/
def add (a b : Nat) : Nat := min (a + b) largest

def mul (a b : Nat) : Nat := min (a * b) largest

/-- The sum of two counts, if it is a count. -/
def sum? (a b : Nat) : Option Nat := if a + b ≤ largest then some (a + b) else none

theorem add_eq_of_le {a b : Nat} (h : a + b ≤ largest) : add a b = a + b :=
  Nat.min_eq_left h

theorem sum?_eq_some_iff {a b sum : Nat} : sum? a b = some sum ↔ a + b ≤ largest ∧ a + b = sum := by
  simp [sum?]

end AnsiCanvas.Count
