import AnsiCanvas.Pen.Change

/-! # The range of classic colors

A code names one of the sixteen classic colors.  So whatever codes a pen follows, its
classic colors stay below sixteen.
-/

namespace AnsiCanvas

/-- A color that is not a classic one past the sixteenth. -/
def Color.InRange : Color → Prop
  | classic index => index < 16
  | unset | palette _ | rgb _ _ _ => True

/-- A pen whose colors are both in range. -/
structure Pen.InRange (pen : Pen) : Prop where
  foreground : pen.foreground.InRange
  background : pen.background.InRange

theorem Pen.inRange_plain : plain.InRange := ⟨trivial, trivial⟩

theorem Color.ofCode?_inRange {layer : Layer} {code : Nat} {selected : Color}
    (named : ofCode? layer code = some selected) : selected.InRange := by
  -- The numbers at hand are below sixteen, so it does no harm that bytes wrap.
  have below {index : Nat} (low : index < 16) : (classic (UInt8.ofNat index)).InRange := by
    rw [InRange, UInt8.lt_iff_toNat_lt, UInt8.toNat_ofNat']
    exact Nat.lt_of_le_of_lt (Nat.mod_le _ _) low
  rw [ofCode?] at named
  split at named
  · obtain rfl := Option.some.inj named
    exact below (by omega)
  · split at named
    · obtain rfl := Option.some.inj named
      exact below (by omega)
    · cases named

namespace Change

/-- A change that selects no color out of range. -/
def InRange : Change → Prop
  | color _ selected => selected.InRange
  | reset | set _ | clear _ => True

theorem readExtended_inRange {rest : List Nat} {selected : Color} {taken : Nat}
    (spelled : readExtended rest = some (selected, taken)) : selected.InRange := by
  unfold readExtended at spelled
  split at spelled
  · split at spelled
    · cases spelled
      trivial
    · cases spelled
  · split at spelled
    · cases spelled
      trivial
    · cases spelled
  · cases spelled

theorem readColor_inRange {layer : Layer} {code : Nat} {rest : List Nat} {change : Change}
    {taken : Nat} (answered : readColor layer code rest = some (.ok (change, taken))) :
    change.InRange := by
  rw [readColor] at answered
  split at answered
  · cases answered
    trivial
  · split at answered
    · split at answered
      · next spelled =>
        cases answered
        exact readExtended_inRange spelled
      · cases answered
    · obtain ⟨selected, named, found⟩ := Option.map_eq_some_iff.mp answered
      cases found
      exact Color.ofCode?_inRange named

theorem read_inRange {code : Nat} {rest : List Nat} {change : Change} {taken : Nat}
    (answered : read code rest = .ok (change, taken)) : change.InRange := by
  rw [read] at answered
  repeat' split at answered
  · cases answered
    trivial
  · cases answered
    trivial
  · cases answered
    trivial
  · next found =>
    exact readColor_inRange (found.trans (congrArg some answered))
  · next found =>
    exact readColor_inRange (found.trans (congrArg some answered))
  · cases answered

end Change

namespace Pen

theorem InRange.apply {pen : Pen} (pens : pen.InRange) {change : Change}
    (selects : change.InRange) : (pen.apply change).InRange := by
  cases change with
  | reset => exact inRange_plain
  | set | clear => exact ⟨pens.foreground, pens.background⟩
  | color layer selected =>
    cases layer with
    | foreground => exact ⟨selects, pens.background⟩
    | background => exact ⟨pens.foreground, selects⟩

/-- Following codes keeps a pen in range, wherever the codes fail. -/
theorem InRange.merge {pen : Pen} (pens : pen.InRange) (codes : List Nat) :
    (pen.merge codes).1.InRange := by
  induction pen, codes using Pen.merge.induct with
  | case1 pen =>
    rw [Pen.merge]
    exact pens
  | case2 pen code rest change taken answered ih =>
    rw [Pen.merge, answered]
    exact ih (pens.apply (Change.read_inRange answered))
  | case3 pen code rest error answered =>
    rw [Pen.merge, answered]
    exact pens

end Pen

end AnsiCanvas
