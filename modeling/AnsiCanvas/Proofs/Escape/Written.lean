import AnsiCanvas.Escape.Collector
import AnsiCanvas.Proofs.Escape.Numeral
import AnsiCanvas.Proofs.Text.Ascii

/-! # Written control sequences

A control sequence is written as a bracket, numerals between semicolons, and a letter.
Nothing before the letter can end a sequence, neither for a strict collector nor for a
lenient one, so the collector hands on the whole text, and the numbers read from it are
the ones that were written.
-/

namespace AnsiCanvas

/-! ## Parameters -/

namespace Command

/-- Numbers as parameters: numerals between semicolons. -/
def parameterText (values : List Nat) : List Char :=
  [';'].intercalate (values.map (Nat.toDigits 10))

@[simp] theorem parameterText_nil : parameterText [] = [] := rfl

theorem parameterText_singleton (value : Nat) : parameterText [value] = Nat.toDigits 10 value :=
  List.intercalate_singleton

theorem parameterText_cons {values : List Nat} (more : values ≠ []) (value : Nat) :
    parameterText (value :: values) = Nat.toDigits 10 value ++ ';' :: parameterText values := by
  rw [parameterText, List.map_cons, List.intercalate_cons_of_ne_nil (by simpa using more),
    List.append_assoc, List.singleton_append, parameterText]

theorem mem_parameterText {values : List Nat} {c : Char} (member : c ∈ parameterText values) :
    c.isDigit ∨ c = ';' := by
  induction values with
  | nil => simp at member
  | cons value values ih =>
    by_cases last : values = []
    · rw [last, parameterText_singleton] at member
      exact .inl (Parameter.isDigit_of_mem_toDigits member)
    · rw [parameterText_cons last, List.mem_append, List.mem_cons] at member
      rcases member with member | equal | member
      · exact .inl (Parameter.isDigit_of_mem_toDigits member)
      · exact .inr equal
      · exact ih member

theorem parameterText_ne_nil {values : List Nat} (some : values ≠ []) :
    parameterText values ≠ [] := by
  cases values with
  | nil => contradiction
  | cons value values =>
    by_cases last : values = []
    · rw [last, parameterText_singleton]
      exact Nat.toDigits_ne_nil
    · simp [parameterText_cons last]

theorem isDigit_of_mem_getLast?_parameterText {values : List Nat} {c : Char}
    (last : c ∈ (parameterText values).getLast?) : c.isDigit := by
  induction values with
  | nil => simp at last
  | cons value values ih =>
    by_cases single : values = []
    · rw [single, parameterText_singleton] at last
      exact Parameter.isDigit_of_mem_toDigits (List.mem_of_mem_getLast? last)
    · have more := parameterText_ne_nil single
      apply ih
      rw [parameterText_cons single, List.getLast?_append, List.getLast?_cons_of_ne_nil more,
        List.getLast?_eq_some_getLast more, Option.some_or] at last
      rwa [List.getLast?_eq_some_getLast more]

theorem parameters?_of_ne_nil {body : List Char} (nonempty : body ≠ []) :
    parameters? ('[' :: body) = some ((body.splitOn ';').map Parameter.read) := by
  cases body with
  | nil => contradiction
  | cons => rfl

/-- What is written as parameters is read as those numbers. -/
theorem parameters?_parameterText (values : List Nat) :
    parameters? ('[' :: parameterText values)
      = some (values.map fun value => .number (min value Parameter.largest)) := by
  by_cases none : values = []
  · rw [none]
    rfl
  · -- No numeral holds a semicolon, so splitting undoes the joining.
    have pieces : (parameterText values).splitOn ';' = values.map (Nat.toDigits 10) := by
      apply List.splitOn_intercalate _ _ (by simpa using none)
      intro digits member semicolon
      obtain ⟨value, _, rfl⟩ := List.mem_map.mp member
      have digit := Parameter.isDigit_of_mem_toDigits semicolon
      simp at digit
    rw [parameters?_of_ne_nil (parameterText_ne_nil none), pieces, List.map_map]
    simp only [Function.comp_def, Parameter.read_toDigits]

/-! ## Sequences -/

/-- A control sequence without its letter. -/
def controlText (values : List Nat) : List Char := '[' :: parameterText values

theorem isAscii_controlText (values : List Nat) : Text.Utf8.IsAscii (controlText values) := by
  intro c member
  rcases List.mem_cons.mp member with rfl | member
  · decide
  · rcases mem_parameterText member with digit | rfl
    · have bounds : 48 ≤ c.toNat ∧ c.toNat ≤ 57 := Char.isDigit_iff_toNat.mp digit
      omega
    · decide

theorem trim_controlText (values : List Nat) :
    Text.trim (controlText values) = controlText values := by
  apply Text.trim_eq_self
  · intro c first
    obtain rfl : '[' = c := by simpa [controlText] using first
    decide
  · intro c last
    by_cases none : values = []
    · obtain rfl : '[' = c := by simpa [controlText, none] using last
      decide
    · rw [controlText, List.getLast?_cons_of_ne_nil (parameterText_ne_nil none)] at last
      exact Text.isBlank_of_isDigit (isDigit_of_mem_getLast?_parameterText last)

/-- A written control sequence means what its numbers mean to its letter. -/
theorem ofSequence_controlText {letter : UInt8} {kind : Control} {values : List Nat}
    {command : Command} (family : Family.ofLetter? letter = some (.control kind))
    (meaning : ofParameters (values.map fun value => .number (min value Parameter.largest)) kind
      = .ok command) :
    ofSequence letter (Text.Utf8.encode (controlText values)) = .ok command := by
  have read : ofFamily letter (controlText values) (.control kind) = .ok command := by
    rw [ofFamily, controlText, parameters?_parameterText]
    exact meaning
  simp only [ofSequence, family, Text.Utf8.decode_encode (isAscii_controlText values),
    trim_controlText, read]

end Command

/-! ## Collecting -/

namespace Collector

theorem feedAll_append (collector : Collector) (first second : List UInt8) :
    collector.feedAll (first ++ second)
      = match collector.feedAll first with
        | (next, none) => next.feedAll second
        | (next, some answer) => (next, some answer) := by
  induction first generalizing collector with
  | nil => rfl
  | cons byte first ih =>
    simp only [List.cons_append, feedAll]
    rcases collector.feed byte with ⟨next, _ | answer⟩
    · exact ih next
    · rfl

/-- A sequence that is still open after some bytes was open all the while. -/
theorem feedAll_eq_none_of_prefix {collector : Collector} {part bytes : List UInt8}
    (within : part <+: bytes) (silent : (collector.feedAll bytes).2 = none) :
    (collector.feedAll part).2 = none := by
  obtain ⟨rest, rfl⟩ := within
  rw [feedAll_append] at silent
  cases answer : collector.feedAll part with
  | mk next answered =>
    -- An answer given early would be the answer to all bytes.
    cases answered with
    | none => rfl
    | some _ => simp [answer] at silent

theorem isOpen_feed (collector : Collector) (byte : UInt8) :
    (collector.feed byte).1.isOpen = (collector.isOpen && (collector.feed byte).2.isNone) := by
  obtain ⟨strict, _ | bytes⟩ := collector
  · rfl
  · simp only [feed]
    repeat' split
    all_goals rfl

theorem isOpen_feedAll (collector : Collector) (bytes : List UInt8) :
    (collector.feedAll bytes).1.isOpen
      = (collector.isOpen && (collector.feedAll bytes).2.isNone) := by
  induction bytes generalizing collector with
  | nil => simp [feedAll]
  | cons byte bytes ih =>
    have kept := collector.isOpen_feed byte
    rw [feedAll]
    cases fed : collector.feed byte with
    | mk next answer =>
      rw [fed] at kept
      cases answer with
      | none => simpa [kept] using ih next
      | some _ => simpa using kept

theorem strict_feed (collector : Collector) (byte : UInt8) :
    (collector.feed byte).1.strict = collector.strict := by
  obtain ⟨strict, _ | bytes⟩ := collector
  · rfl
  · simp only [feed]
    repeat' split
    all_goals rfl

theorem strict_feedAll (collector : Collector) (bytes : List UInt8) :
    (collector.feedAll bytes).1.strict = collector.strict := by
  induction bytes generalizing collector with
  | nil => rfl
  | cons byte bytes ih =>
    have kept := collector.strict_feed byte
    rw [feedAll]
    generalize collector.feed byte = fed at kept ⊢
    rcases fed with ⟨next, _ | answer⟩
    · exact (ih next).trans kept
    · exact kept

theorem reset_of_closed {collector : Collector} (closed : collector.isOpen = false) :
    collector.reset = collector := by
  obtain ⟨strict, _ | bytes⟩ := collector
  · rfl
  · simp [isOpen] at closed

theorem isTerminator_of_lt {byte : UInt8} (low : byte < 0x40) : isTerminator byte = false := by
  have all : ∀ value < 0x40, isTerminator (UInt8.ofNat value) = false := by decide
  rw [← UInt8.ofNat_toNat (x := byte)]
  exact all byte.toNat (UInt8.lt_iff_toNat_lt.mp low)

theorem feed_of_between (strict : Bool) (bytes : Array UInt8) {byte : UInt8}
    (low : 0x20 ≤ byte) (high : byte < 0x40) :
    feed ⟨strict, some bytes⟩ byte = (⟨strict, some (bytes.push byte)⟩, none) := by
  have notEscape : byte ≠ 0x1B := by
    rintro rfl
    simp at low
  have notControl : ¬ byte < 0x20 := UInt8.not_lt.mpr low
  have notForeign : isForeignFinal byte bytes.isEmpty = false := by
    simp only [isForeignFinal, Bool.or_eq_false_iff, Bool.and_eq_false_iff, decide_eq_false_iff_not,
      UInt8.not_le]
    exact ⟨UInt8.lt_of_lt_of_le high (by decide), .inl high⟩
  simp only [feed, notEscape, notControl, isTerminator_of_lt high, notForeign, Bool.and_false,
    Bool.false_eq_true, ↓reduceIte]

theorem feedAll_of_between (strict : Bool) (bytes : Array UInt8) {body : List UInt8}
    (between : ∀ byte ∈ body, 0x20 ≤ byte ∧ byte < 0x40) :
    feedAll ⟨strict, some bytes⟩ body = (⟨strict, some (bytes ++ body.toArray)⟩, none) := by
  induction body generalizing bytes with
  | nil => simp [feedAll]
  | cons byte body ih =>
    obtain ⟨low, high⟩ := between byte List.mem_cons_self
    have rest := ih (bytes.push byte) fun other member => between other (List.mem_cons_of_mem _ member)
    rw [feedAll, feed_of_between strict bytes low high]
    simpa using rest

theorem between_of_mem_encode_parameterText {values : List Nat} {byte : UInt8}
    (member : byte ∈ Text.Utf8.encode (Command.parameterText values)) :
    0x20 ≤ byte ∧ byte < 0x40 := by
  have ascii : Text.Utf8.IsAscii (Command.parameterText values) := fun c within =>
    Command.isAscii_controlText values c (List.mem_cons_of_mem _ within)
  rw [Text.Utf8.encode_of_isAscii ascii, List.mem_map] at member
  obtain ⟨c, within, rfl⟩ := member
  have bounds : 32 ≤ c.toNat ∧ c.toNat < 64 := by
    rcases Command.mem_parameterText within with digit | rfl
    · have bounds : 48 ≤ c.toNat ∧ c.toNat ≤ 57 := Char.isDigit_iff_toNat.mp digit
      omega
    · decide
  rw [UInt8.le_iff_toNat_le, UInt8.lt_iff_toNat_lt, UInt8.toNat_ofNat']
  have small : c.toNat % 2 ^ 8 = c.toNat := Nat.mod_eq_of_lt (by omega)
  rw [small]
  exact bounds

/-- Nothing before the letter ends a written sequence. -/
theorem begin_feedAll_controlText (collector : Collector) (values : List Nat) :
    collector.begin.feedAll (Text.Utf8.encode (Command.controlText values))
      = (⟨collector.strict, some (Text.Utf8.encode (Command.controlText values)).toArray⟩, none) := by
  -- The bracket is a foreign final byte anywhere but here.
  have notTerminator : isTerminator 0x5B = false := by decide
  have bracket : feed ⟨collector.strict, some #[]⟩ 0x5B
      = (⟨collector.strict, some #[0x5B]⟩, none) := by
    simp [feed, notTerminator, isForeignFinal]
  have split : Text.Utf8.encode (Command.controlText values)
      = 0x5B :: Text.Utf8.encode (Command.parameterText values) := by
    rw [Command.controlText, Text.Utf8.encode_cons, Text.Utf8.utf8EncodeChar_of_lt (by decide)]
    rfl
  rw [split, begin, feedAll, bracket]
  simpa using feedAll_of_between collector.strict #[0x5B]
    fun byte member => between_of_mem_encode_parameterText member

/-- A collector, whatever it has seen before, takes a written sequence up to its letter. -/
theorem read_controlText (collector : Collector) {letter : UInt8} (values : List Nat)
    (ends : isTerminator letter) (printable : 0x20 ≤ letter) :
    collector.read (Text.Utf8.encode (Command.controlText values) ++ [letter])
      = (collector.reset,
          some (Command.ofSequence letter (Text.Utf8.encode (Command.controlText values)))) := by
  have notEscape : letter ≠ 0x1B := by
    rintro rfl
    simp at printable
  have notControl : ¬ letter < 0x20 := UInt8.not_lt.mpr printable
  rw [read, feedAll_append, begin_feedAll_controlText]
  simp only [feedAll, feed, notEscape, notControl, ends, ↓reduceIte, reset]

theorem read_part_controlText (collector : Collector) (values : List Nat) {letter : UInt8}
    {part : List UInt8}
    (within : part <+: Text.Utf8.encode (Command.controlText values) ++ [letter])
    (proper : part ≠ Text.Utf8.encode (Command.controlText values) ++ [letter]) :
    (collector.read part).2 = none := by
  rcases List.prefix_concat_iff.mp within with equal | within
  · exact absurd equal proper
  · apply feedAll_eq_none_of_prefix within
    rw [begin_feedAll_controlText]

end Collector

end AnsiCanvas
