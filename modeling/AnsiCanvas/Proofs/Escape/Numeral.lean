import AnsiCanvas.Escape.Parameter
import Mathlib.Data.List.TakeWhile

/-! # Numerals as parameters

The digits of a number, however many, are read as that number held at the largest
parameter.  Holding the value after every digit is the same as holding it once at the
end, because a value that has reached the limit can only stay there.  Blanks around the
digits do not matter, and a text with anything else in it is no number.
-/

namespace AnsiCanvas

/-! ## Trimming -/

namespace Text

theorem trimStart_eq_self {text : List Char} (first : ∀ c ∈ text.head?, isBlank c = false) :
    trimStart text = text := by
  cases text with
  | nil => rfl
  | cons c text =>
    have kept := first c rfl
    rw [trimStart, List.dropWhile_cons_of_neg (by simp [kept])]

theorem trimEnd_eq_self {text : List Char} (last : ∀ c ∈ text.getLast?, isBlank c = false) :
    trimEnd text = text := by
  rw [trimEnd, trimStart_eq_self (by simpa using last), List.reverse_reverse]

theorem trim_eq_self {text : List Char} (first : ∀ c ∈ text.head?, isBlank c = false)
    (last : ∀ c ∈ text.getLast?, isBlank c = false) : trim text = text := by
  rw [trim, trimEnd_eq_self last, trimStart_eq_self first]

theorem isBlank_of_isDigit {c : Char} (digit : c.isDigit) : isBlank c = false := by
  have bounds : 48 ≤ c.toNat ∧ c.toNat ≤ 57 := Char.isDigit_iff_toNat.mp digit
  simp [isBlank]
  omega

theorem trim_of_all_isDigit {digits : List Char} (all : ∀ c ∈ digits, c.isDigit) :
    trim digits = digits :=
  trim_eq_self (fun c member => isBlank_of_isDigit (all c (List.mem_of_mem_head? member)))
    (fun c member => isBlank_of_isDigit (all c (List.mem_of_mem_getLast? member)))

theorem trimStart_append {before : List Char} (blank : ∀ c ∈ before, isBlank c)
    (text : List Char) : trimStart (before ++ text) = trimStart text :=
  List.dropWhile_append_of_pos blank

theorem trimEnd_append {after : List Char} (blank : ∀ c ∈ after, isBlank c) (text : List Char) :
    trimEnd (text ++ after) = trimEnd text := by
  rw [trimEnd, List.reverse_append, trimStart_append (by simpa using blank), trimEnd]

/-- What is removed at the ends of a text are blanks. -/
theorem exists_blanks_around (text : List Char) :
    ∃ before after, (∀ c ∈ before, isBlank c) ∧ (∀ c ∈ after, isBlank c)
      ∧ text = before ++ trim text ++ after := by
  refine ⟨(trimEnd text).takeWhile isBlank, (text.reverse.takeWhile isBlank).reverse,
    fun c => List.mem_takeWhile_imp, ?_, ?_⟩
  · intro c member
    exact List.mem_takeWhile_imp (List.mem_reverse.mp member)
  · rw [trim, trimStart, List.takeWhile_append_dropWhile, trimEnd, trimStart, ← List.reverse_append,
      List.takeWhile_append_dropWhile, List.reverse_reverse]

theorem trim_eq_nil_iff (text : List Char) : trim text = [] ↔ ∀ c ∈ text, isBlank c := by
  constructor
  · intro nothing
    obtain ⟨before, after, blankBefore, blankAfter, same⟩ := exists_blanks_around text
    rw [same, nothing, List.append_nil, List.forall_mem_append]
    exact ⟨blankBefore, blankAfter⟩
  · intro blank
    have ended : trimEnd text = [] := trimEnd_append blank []
    rw [trim, ended]
    rfl

end Text

/-! ## Values -/

namespace Parameter

theorem addDigit_min (value : Nat) (digit : Char) :
    addDigit (min value largest) digit
      = min (10 * value + (digit.toNat - '0'.toNat)) largest := by
  -- A value at the limit is pushed past it by the shift already.
  simp only [addDigit, largest]
  omega

theorem foldl_addDigit (digits : List Char) (value : Nat) :
    digits.foldl addDigit (min value largest)
      = min (Nat.ofDigitChars 10 digits value) largest := by
  induction digits generalizing value with
  | nil => rfl
  | cons digit digits ih =>
    rw [List.foldl_cons, addDigit_min, ih, Nat.ofDigitChars_cons]

/-- Digits are read as the number they spell, held at the largest parameter. -/
theorem read_of_all_isDigit {digits : List Char} (nonempty : digits ≠ [])
    (all : ∀ c ∈ digits, c.isDigit) :
    read digits = number (min (Nat.ofDigitChars 10 digits 0) largest) := by
  have held := foldl_addDigit digits 0
  rw [Nat.zero_min] at held
  cases digits with
  | nil => contradiction
  | cons digit digits =>
    have every : (digit :: digits).all Char.isDigit = true := List.all_eq_true.mpr all
    rw [read, Text.trim_of_all_isDigit all]
    simp only [every, ↓reduceIte, held]

/-- How the text of a parameter is read depends on what is left of it without the blanks around
    it. -/
theorem read_congr {text other : List Char} (same : Text.trim text = Text.trim other) :
    read text = read other := by
  rw [read, read, same]

/-! ## Texts -/

/-- The texts that are numbers in decimal, each with its value: digits, zeros in front of them
    included, and blanks around them. -/
inductive Numeral : List Char → Nat → Prop
  | digits {before digits after : List Char} (blankBefore : ∀ c ∈ before, Text.isBlank c)
      (blankAfter : ∀ c ∈ after, Text.isBlank c) (nonempty : digits ≠ [])
      (all : ∀ c ∈ digits, c.isDigit) :
      Numeral (before ++ digits ++ after) (Nat.ofDigitChars 10 digits 0)

theorem numeral_iff {text : List Char} {value : Nat} :
    Numeral text value
      ↔ Text.trim text ≠ [] ∧ (∀ c ∈ Text.trim text, c.isDigit)
        ∧ Nat.ofDigitChars 10 (Text.trim text) 0 = value := by
  constructor
  · rintro @⟨before, digits, after, blankBefore, blankAfter, nonempty, all⟩
    have last : Text.trimEnd (before ++ digits) = before ++ digits := by
      apply Text.trimEnd_eq_self
      intro c member
      rw [List.getLast?_append, List.getLast?_eq_some_getLast nonempty, Option.some_or] at member
      obtain rfl := Option.some.inj member
      exact Text.isBlank_of_isDigit (all _ (List.getLast_mem nonempty))
    have first := Text.trimStart_eq_self fun c member =>
      Text.isBlank_of_isDigit (all c (List.mem_of_mem_head? member))
    have trimmed : Text.trim (before ++ digits ++ after) = digits := by
      rw [Text.trim, Text.trimEnd_append blankAfter, last, Text.trimStart_append blankBefore, first]
    rw [trimmed]
    exact ⟨nonempty, all, rfl⟩
  · rintro ⟨nonempty, all, rfl⟩
    obtain ⟨before, after, blankBefore, blankAfter, same⟩ := Text.exists_blanks_around text
    have numeral := Numeral.digits blankBefore blankAfter nonempty all
    rwa [← same] at numeral

theorem read_of_numeral {text : List Char} {value : Nat} (numeral : Numeral text value) :
    read text = number (min value largest) := by
  obtain ⟨nonempty, all, rfl⟩ := numeral_iff.mp numeral
  rw [← read_of_all_isDigit nonempty all]
  exact read_congr (Text.trim_of_all_isDigit all).symm

theorem read_of_blank {text : List Char} (blank : ∀ c ∈ text, Text.isBlank c) :
    read text = absent := by
  rw [read, (Text.trim_eq_nil_iff text).mpr blank]

theorem read_of_not_numeral {text : List Char} (marked : ∃ c ∈ text, Text.isBlank c = false)
    (other : ∀ value, ¬ Numeral text value) : read text = invalid := by
  have nonempty : Text.trim text ≠ [] := by
    simpa [Text.trim_eq_nil_iff] using marked
  have foreign : (Text.trim text).all Char.isDigit = false := by
    rw [Bool.eq_false_iff]
    intro all
    exact other _ (numeral_iff.mpr ⟨nonempty, List.all_eq_true.mp all, rfl⟩)
  rw [read]
  split
  · contradiction
  · rw [if_neg (by simp [foreign])]

/-- A number below the largest is read from its numerals and from nothing else. -/
theorem read_eq_number_iff {text : List Char} {value : Nat} (small : value < largest) :
    read text = number value ↔ Numeral text value := by
  constructor
  · intro read
    by_cases numeral : ∃ exact, Numeral text exact
    · obtain ⟨exact, numeral⟩ := numeral
      have held : min exact largest = value :=
        number.inj ((read_of_numeral numeral).symm.trans read)
      obtain rfl : exact = value := by omega
      exact numeral
    · by_cases blank : ∀ c ∈ text, Text.isBlank c
      · rw [read_of_blank blank] at read
        cases read
      · rw [read_of_not_numeral (by simpa using blank) (by simpa using numeral)] at read
        cases read
  · intro numeral
    rw [read_of_numeral numeral, Nat.min_eq_left (Nat.le_of_lt small)]

theorem isDigit_of_mem_toDigits {value : Nat} {c : Char} (member : c ∈ Nat.toDigits 10 value) :
    c.isDigit :=
  Nat.isDigit_of_mem_toDigits (by decide) (by decide) member

theorem read_toDigits (value : Nat) :
    read (Nat.toDigits 10 value) = number (min value largest) := by
  rw [read_of_all_isDigit Nat.toDigits_ne_nil fun c => isDigit_of_mem_toDigits,
    Nat.ofDigitChars_ten_toDigits]

end Parameter

end AnsiCanvas
