/-! # Styles

The nine attributes a glyph can carry beside its colors, sets of them, and the
codes that clear them again.  Two of the clearing codes take away two styles at
once, which is why clearing has a type of its own.
-/

namespace AnsiCanvas

/-- An attribute of a glyph, in the order of the codes 1 to 9. -/
inductive Style
  | bold
  | faint
  | italic
  | underline
  | slowBlink
  | fastBlink
  | inverse
  | conceal
  | strikethrough
  deriving DecidableEq, Repr

namespace Style

def all : List Style :=
  [bold, faint, italic, underline, slowBlink, fastBlink, inverse, conceal, strikethrough]

theorem mem_all (style : Style) : style ∈ all := by cases style <;> decide

/-- The place of a style in a set's bits. -/
def position : Style → Nat
  | bold => 0
  | faint => 1
  | italic => 2
  | underline => 3
  | slowBlink => 4
  | fastBlink => 5
  | inverse => 6
  | conceal => 7
  | strikethrough => 8

theorem position_lt (style : Style) : style.position < 9 := by cases style <;> decide

@[simp] theorem position_inj {a b : Style} : a.position = b.position ↔ a = b := by
  cases a <;> cases b <;> decide

def code (style : Style) : Nat := style.position + 1

def ofCode? : Nat → Option Style
  | 1 => some bold
  | 2 => some faint
  | 3 => some italic
  | 4 => some underline
  | 5 => some slowBlink
  | 6 => some fastBlink
  | 7 => some inverse
  | 8 => some conceal
  | 9 => some strikethrough
  | _ => none

end Style

structure StyleSet where
  bits : BitVec 9 := 0
  deriving DecidableEq, Repr

namespace StyleSet

def empty : StyleSet := {}

def contains (set : StyleSet) (style : Style) : Bool :=
  set.bits.getLsbD style.position

def insert (set : StyleSet) (style : Style) : StyleSet :=
  ⟨set.bits ||| BitVec.twoPow 9 style.position⟩

def erase (set : StyleSet) (style : Style) : StyleSet :=
  ⟨set.bits &&& ~~~BitVec.twoPow 9 style.position⟩

@[simp] theorem contains_empty (style : Style) : empty.contains style = false := by
  simp [empty, contains]

@[simp] theorem contains_insert (set : StyleSet) (style other : Style) :
    (set.insert style).contains other = (set.contains other || decide (other = style)) := by
  simp [insert, contains, Style.position_lt]

@[simp] theorem contains_erase (set : StyleSet) (style other : Style) :
    (set.erase style).contains other = (set.contains other && !decide (other = style)) := by
  simp [erase, contains, Style.position_lt]

theorem ext_contains {a b : StyleSet} (h : ∀ style, a.contains style = b.contains style) :
    a = b := by
  obtain ⟨a⟩ := a
  obtain ⟨b⟩ := b
  have bold := h .bold
  have faint := h .faint
  have italic := h .italic
  have underline := h .underline
  have slowBlink := h .slowBlink
  have fastBlink := h .fastBlink
  have inverse := h .inverse
  have conceal := h .conceal
  have strikethrough := h .strikethrough
  congr 1
  apply BitVec.eq_of_getLsbD_eq
  intro i hi
  have cases : i = 0 ∨ i = 1 ∨ i = 2 ∨ i = 3 ∨ i = 4 ∨ i = 5 ∨ i = 6 ∨ i = 7 ∨ i = 8 := by omega
  rcases cases with rfl | rfl | rfl | rfl | rfl | rfl | rfl | rfl | rfl <;> assumption

end StyleSet

inductive Clearing
  | bold
  | weight
  | italic
  | underline
  | blink
  | fastBlink
  | inverse
  | conceal
  | strikethrough
  deriving DecidableEq, Repr

namespace Clearing

def code : Clearing → Nat
  | bold => 21
  | weight => 22
  | italic => 23
  | underline => 24
  | blink => 25
  | fastBlink => 26
  | inverse => 27
  | conceal => 28
  | strikethrough => 29

def ofCode? : Nat → Option Clearing
  | 21 => some bold
  | 22 => some weight
  | 23 => some italic
  | 24 => some underline
  | 25 => some blink
  | 26 => some fastBlink
  | 27 => some inverse
  | 28 => some conceal
  | 29 => some strikethrough
  | _ => none

def styles : Clearing → List Style
  | bold => [.bold]
  | weight => [.bold, .faint]
  | italic => [.italic]
  | underline => [.underline]
  | blink => [.slowBlink, .fastBlink]
  | fastBlink => [.fastBlink]
  | inverse => [.inverse]
  | conceal => [.conceal]
  | strikethrough => [.strikethrough]

/-- The clearings used to write a pen: each style is taken away by exactly one. -/
def written : List Clearing := [weight, italic, underline, blink, inverse, conceal, strikethrough]

def apply (clearing : Clearing) (set : StyleSet) : StyleSet :=
  clearing.styles.foldl StyleSet.erase set

@[simp] theorem contains_apply (clearing : Clearing) (set : StyleSet) (style : Style) :
    (clearing.apply set).contains style
      = (set.contains style && !clearing.styles.contains style) := by
  cases clearing <;> simp [apply, styles, Bool.and_assoc]

end Clearing

end AnsiCanvas
