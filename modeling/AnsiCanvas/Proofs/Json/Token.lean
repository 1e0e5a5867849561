import AnsiCanvas.Json.Value

/-! # Spelled tokens

What a JSON text may look like, token by token, and that the tokenizer reads it.  A string has many
spellings, as each of its characters may be written as itself, by a letter after a backslash or by
the digits of its code.  A natural number has one.

The tokenizer takes a number to go on until a character comes that no number goes on with, so a
number is read only together with what ends it.
-/

namespace AnsiCanvas.Json

/-! ## Spellings -/

/-- White space, which may stand between tokens. -/
def IsSpace (text : List Char) : Prop := ∀ c ∈ text, Tokenizer.isSpace c = true

instance (text : List Char) : Decidable (IsSpace text) :=
  decidable_of_iff (text.all Tokenizer.isSpace = true) List.all_eq_true

/-- The ways in which a character is written in a string. -/
inductive SpellsChar (c : Char) : List Char → Prop
  | plain : 0x20 ≤ c.toNat → c ≠ '\x22' → c ≠ '\x5c' → SpellsChar c [c]
  | named {letter : Char} : escaped? letter = some c → SpellsChar c ['\x5c', letter]
  /-- Four hexadecimal digits of either case. -/
  | code {first second third fourth : Char} {a b d e : Nat} :
      Text.hexDigit? first = some a → Text.hexDigit? second = some b →
      Text.hexDigit? third = some d → Text.hexDigit? fourth = some e →
      c.toNat = ((a * 16 + b) * 16 + d) * 16 + e →
      SpellsChar c ['\x5c', 'u', first, second, third, fourth]

inductive SpellsChars : List Char → List Char → Prop
  | nil : SpellsChars [] []
  | cons {c : Char} {part rest text : List Char} :
      SpellsChar c part → SpellsChars rest text → SpellsChars (c :: rest) (part ++ text)

/-- A string of which nothing is left out, between quotation marks. -/
def SpellsString (name : String) (text : List Char) : Prop :=
  ∃ inside, SpellsChars name.toList inside ∧ text = '\x22' :: (inside ++ ['\x22'])

/-- The spellings of values that hold no others: natural numbers, truth values and strings. -/
inductive SpellsScalar : Value → List Char → Prop
  | number (value : Nat) : SpellsScalar (.number value.repr) value.repr.toList
  | bool (value : Bool) : SpellsScalar (.bool value) (if value then "true" else "false").toList
  | text {name : String} {text : List Char} :
      SpellsString name text → SpellsScalar (.text (some name)) text

/-- Whether a character may stand for itself in a string. -/
def isPlain (c : Char) : Bool := decide (0x20 ≤ c.toNat) && c != '\x22' && c != '\x5c'

theorem SpellsChar.of_isPlain {c : Char} (plain : isPlain c = true) : SpellsChar c [c] := by
  simp only [isPlain, Bool.and_eq_true, decide_eq_true_eq, bne_iff_ne] at plain
  exact .plain plain.1.1 plain.1.2 plain.2

theorem SpellsChars.of_all_isPlain {name : List Char} (plain : name.all isPlain = true) :
    SpellsChars name name := by
  induction name with
  | nil => exact .nil
  | cons c name ih =>
    rw [List.all_cons, Bool.and_eq_true] at plain
    exact .cons (.of_isPlain plain.1) (ih plain.2)

/-! ## Reading -/

section Steps

variable {State Item : Type} {step : State → Item → Option State} {state next : State}

theorem foldlM_cons_of_some {first : Item} (taken : step state first = some next)
    (rest : List Item) : (first :: rest).foldlM step state = rest.foldlM step next := by
  rw [List.foldlM_cons, taken]
  rfl

theorem foldlM_append_of_some {first : List Item} (taken : first.foldlM step state = some next)
    (rest : List Item) : (first ++ rest).foldlM step state = rest.foldlM step next := by
  rw [List.foldlM_append, taken]
  rfl

end Steps

namespace Tokenizer

theorem foldlM_space {space : List Char} (blank : IsSpace space) (tokens : Array Token)
    (rest : List Char) :
    (space ++ rest).foldlM step? ⟨tokens, .between⟩ = rest.foldlM step? ⟨tokens, .between⟩ := by
  induction space with
  | nil => rfl
  | cons c space ih =>
    have first : step? ⟨tokens, .between⟩ c = some ⟨tokens, .between⟩ := by
      simp only [step?, start?, blank c List.mem_cons_self, ↓reduceIte]
    rw [List.cons_append, foldlM_cons_of_some first]
    exact ih fun other member => blank other (List.mem_cons_of_mem _ member)

/-- The code of a character is never half of a pair. -/
theorem pushUnit_toNat (written : String) (c : Char) :
    ({ written } : Content).pushUnit c.toNat = { written := written.push c } := by
  have valid : c.toNat < 0xD800 ∨ 0xDFFF < c.toNat := c.valid.imp_right And.left
  have notLow : ¬ (0xDC00 ≤ c.toNat ∧ c.toNat < 0xE000) := by omega
  have notHigh : ¬ (0xD800 ≤ c.toNat ∧ c.toNat < 0xDC00) := by omega
  rw [Content.pushUnit, if_neg notLow, if_neg notHigh, Char.ofNat_toNat]
  rfl

theorem foldlM_char {c : Char} {part : List Char} (spelled : SpellsChar c part)
    (tokens : Array Token) (written : String) :
    part.foldlM step? ⟨tokens, .string .plain { written }⟩
      = some ⟨tokens, .string .plain { written := written.push c }⟩ := by
  cases spelled with
  | plain printable noQuote noBackslash =>
    have visible : ¬ c.toNat < 0x20 := Nat.not_lt.mpr printable
    simp [step?, string?, noQuote, noBackslash, visible, Content.push, Content.settle]
  | @named letter names =>
    have noCode : letter ≠ 'u' := by
      rintro rfl
      cases names
    simp [step?, string?, noCode, names, Content.push, Content.settle]
  | code first second third fourth value =>
    simp [step?, string?, first, second, third, fourth, ← value, pushUnit_toNat]

theorem foldlM_chars {name inside : List Char} (spelled : SpellsChars name inside)
    (tokens : Array Token) (written : String) :
    inside.foldlM step? ⟨tokens, .string .plain { written }⟩
      = some ⟨tokens, .string .plain { written := written ++ String.ofList name }⟩ := by
  induction spelled generalizing written with
  | nil => simp
  | @cons c part rest text spelled _ ih =>
    have joined : written.push c ++ String.ofList rest = written ++ String.ofList (c :: rest) := by
      simp [← String.toList_inj]
    rw [foldlM_append_of_some (foldlM_char spelled _ _), ih, joined]

theorem foldlM_string {name : String} {text : List Char} (spelled : SpellsString name text)
    (tokens : Array Token) (rest : List Char) :
    (text ++ rest).foldlM step? ⟨tokens, .between⟩
      = rest.foldlM step? ⟨tokens.push (.text (some name)), .between⟩ := by
  obtain ⟨inside, chars, rfl⟩ := spelled
  have opened : step? ⟨tokens, .between⟩ '\x22' = some ⟨tokens, .string .plain {}⟩ := rfl
  have closed : step? ⟨tokens, .string .plain { written := name }⟩ '\x22'
      = some ⟨tokens.push (.text (some name)), .between⟩ := rfl
  have read := foldlM_chars chars tokens ""
  rw [String.empty_append, String.ofList_toList] at read
  rw [List.cons_append, List.append_assoc, foldlM_cons_of_some opened, foldlM_append_of_some read,
    List.singleton_append, foldlM_cons_of_some closed]

theorem foldlM_bool (value : Bool) (tokens : Array Token) (rest : List Char) :
    ((if value then "true" else "false").toList ++ rest).foldlM step? ⟨tokens, .between⟩
      = rest.foldlM step? ⟨tokens.push (.bool value), .between⟩ := by
  cases value <;> rfl

/-! ## Numbers -/

/-- A text that begins with white space or a mark, and so ends what is before it. -/
def Ends (rest : List Char) : Prop :=
  ∃ c tail, rest = c :: tail ∧ (isSpace c = true ∨ (mark? c).isSome = true)

theorem Ends.space_append {rest : List Char} (ends : Ends rest) {space : List Char}
    (blank : IsSpace space) : Ends (space ++ rest) := by
  cases space with
  | nil => exact ends
  | cons c space => exact ⟨c, space ++ rest, rfl, .inl (blank c List.mem_cons_self)⟩

/-- No number goes on with white space or a mark. -/
theorem next?_of_ends {c : Char} (ends : isSpace c = true ∨ (mark? c).isSome = true)
    {phase : NumberPhase} (complete : phase.isComplete = true) : phase.next? c = none := by
  have plain : c.isDigit = false ∧ c ≠ '.' ∧ c ≠ 'e' ∧ c ≠ 'E' := by
    rcases ends with space | mark
    · simp only [isSpace, Bool.or_eq_true, beq_iff_eq] at space
      rcases space with ((rfl | rfl) | rfl) | rfl <;> decide
    · unfold mark? at mark
      split at mark <;> first | decide | cases mark
  obtain ⟨noDigit, noPoint, noLower, noUpper⟩ := plain
  cases phase with
  | minus | point | exponent | exponentSign => cases complete
  | zero | integer | fraction | exponentDigits =>
    simp [NumberPhase.next?, noDigit, noPoint, noLower, noUpper]

theorem foldlM_number_of_ends {phase : NumberPhase} (complete : phase.isComplete = true)
    {rest : List Char} (ends : Ends rest) (tokens : Array Token) (literal : String) :
    rest.foldlM step? ⟨tokens, .number phase literal⟩
      = rest.foldlM step? ⟨tokens.push (.number literal), .between⟩ := by
  obtain ⟨c, tail, rfl, ends⟩ := ends
  rw [List.foldlM_cons, List.foldlM_cons]
  simp only [step?, next?_of_ends ends complete, complete, ↓reduceIte]

theorem foldlM_digits {digits : List Char} (all : ∀ c ∈ digits, c.isDigit = true)
    (tokens : Array Token) (literal : String) :
    digits.foldlM step? ⟨tokens, .number .integer literal⟩
      = some ⟨tokens, .number .integer (literal ++ String.ofList digits)⟩ := by
  induction digits generalizing literal with
  | nil => simp
  | cons digit digits ih =>
    have joined : literal.push digit ++ String.ofList digits
        = literal ++ String.ofList (digit :: digits) := by
      simp [← String.toList_inj]
    have first : step? ⟨tokens, .number .integer literal⟩ digit
        = some ⟨tokens, .number .integer (literal.push digit)⟩ := by
      simp only [step?, NumberPhase.next?, all digit List.mem_cons_self, ↓reduceIte]
    rw [foldlM_cons_of_some first, ih fun other member => all other (List.mem_cons_of_mem _ member),
      joined]

/-- Only zero begins with a zero. -/
theorem head?_toDigits_ne (value : Nat) (positive : 0 < value) :
    (Nat.toDigits 10 value).head? ≠ some '0' := by
  induction value using Nat.strongRecOn with
  | ind value ih =>
    by_cases small : value < 10
    · rw [Nat.toDigits_of_lt_base small]
      simpa using Nat.ne_of_gt positive
    · have shorter := ih (value / 10) (Nat.div_lt_self positive (by decide)) (by omega)
      rw [Nat.toDigits_of_base_le (by decide) (Nat.not_lt.mp small), List.head?_append]
      cases digits : Nat.toDigits 10 (value / 10) with
      | nil => exact absurd digits Nat.toDigits_ne_nil
      | cons first rest =>
        rw [digits] at shorter
        exact shorter

theorem step?_digit {c : Char} (digit : c.isDigit = true) (notZero : c ≠ '0')
    (tokens : Array Token) :
    step? ⟨tokens, .between⟩ c = some ⟨tokens, .number .integer (String.singleton c)⟩ := by
  have apart {other : Char} (noDigit : other.isDigit = false) : c ≠ other := by
    rintro rfl
    rw [digit] at noDigit
    cases noDigit
  have noSpace : isSpace c = false := by
    have blank : c ≠ ' ' ∧ c ≠ '\t' ∧ c ≠ '\n' ∧ c ≠ '\r' :=
      ⟨apart rfl, apart rfl, apart rfl, apart rfl⟩
    simp [isSpace, blank]
  have noMark : mark? c = none := by
    unfold mark?
    split <;> first | rfl | exact absurd digit (by decide)
  have noQuote : c ≠ '\x22' := apart rfl
  have noMinus : c ≠ '-' := apart rfl
  simp [step?, start?, noSpace, noMark, begin?, noQuote, noMinus, notZero, digit]

theorem foldlM_repr (value : Nat) (tokens : Array Token) :
    ∃ phase, phase.isComplete = true
      ∧ value.repr.toList.foldlM step? ⟨tokens, .between⟩
        = some ⟨tokens, .number phase value.repr⟩ := by
  have all : ∀ c ∈ Nat.toDigits 10 value, c.isDigit = true :=
    fun c => Nat.isDigit_of_mem_toDigits (by decide) (by decide)
  rcases Nat.eq_zero_or_pos value with rfl | positive
  · exact ⟨.zero, rfl, rfl⟩
  · have head := head?_toDigits_ne value positive
    rw [Nat.toList_repr, Nat.repr_eq_ofList_toDigits]
    cases digits : Nat.toDigits 10 value with
    | nil => exact absurd digits Nat.toDigits_ne_nil
    | cons first rest =>
      rw [digits] at all head
      have begun := step?_digit (all first List.mem_cons_self)
        (fun zero => head (congrArg some zero)) tokens
      refine ⟨.integer, rfl, ?_⟩
      rw [foldlM_cons_of_some begun,
        foldlM_digits fun other member => all other (List.mem_cons_of_mem _ member)]
      simp

/-! ## Scalars -/

/-- A text that is read as tokens of its own, as long as what is after it ends it. -/
def Yields (text : List Char) (own : List Token) : Prop :=
  ∀ (tokens : Array Token) (rest : List Char), Ends rest →
    (text ++ rest).foldlM step? ⟨tokens, .between⟩
      = rest.foldlM step? ⟨tokens ++ own.toArray, .between⟩

/-- A token that stands for a value wherever one may be. -/
def StandsFor (token : Token) (value : Value) : Prop :=
  ∀ stack, Reader.value? stack token = some (Reader.accept stack value)

theorem exists_yields_scalar {value : Value} {text : List Char}
    (spelled : SpellsScalar value text) : ∃ token, StandsFor token value ∧ Yields text [token] := by
  cases spelled with
  | number value =>
    refine ⟨.number value.repr, fun _ => rfl, fun tokens rest ends => ?_⟩
    obtain ⟨phase, complete, read⟩ := foldlM_repr value tokens
    rw [foldlM_append_of_some read, foldlM_number_of_ends complete ends]
    rfl
  | bool value =>
    exact ⟨.bool value, fun _ => rfl, fun tokens rest _ => foldlM_bool value tokens rest⟩
  | text spelled =>
    exact ⟨.text _, fun _ => rfl, fun tokens rest _ => foldlM_string spelled tokens rest⟩

end Tokenizer

end AnsiCanvas.Json
