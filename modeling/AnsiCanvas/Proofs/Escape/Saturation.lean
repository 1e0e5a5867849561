import AnsiCanvas.Proofs.Escape.Codec

/-! # Numbers of any length

A parameter may have any number of digits, and its value is exact up to the largest that a
parameter can hold.  A larger one is held there and never wraps around, so it is not mistaken for
a small one.  In particular a color code is never what is left of a number that is too large, and
a cursor that is sent far away goes far away.
-/

namespace AnsiCanvas

open Parameter (Numeral)

/-! ## Codes -/

namespace Command

/-- Numerals of a byte spell the codes that they are. -/
theorem renditionCodes?_of_numerals {parts : List (List Char)} {codes : List Nat}
    (numerals : List.Forall₂ Numeral parts codes) (bytes : ∀ code ∈ codes, code < 256) :
    renditionCodes? (parts.map Parameter.read) = some codes := by
  refine renditionCodes?_eq_some_iff.mpr ⟨?_, bytes⟩
  induction numerals with
  | nil => rfl
  | cons numeral _ ih =>
    obtain ⟨small, others⟩ := List.forall_mem_cons.mp bytes
    have exact := (Parameter.read_eq_number_iff (Nat.lt_trans small (by decide))).mpr numeral
    rw [List.map_cons, List.map_cons, exact, ih others]

theorem exists_renditionCodes?_iff (parameters : List Parameter) :
    (∃ codes, renditionCodes? parameters = some codes)
      ↔ ∀ parameter ∈ parameters, ∃ code < 256, parameter = .number code := by
  induction parameters with
  | nil => simp [renditionCodes?]
  | cons parameter parameters ih =>
    rw [List.forall_mem_cons, ← ih]
    cases parameter with
    | absent | invalid => simp [renditionCodes?]
    | number value =>
      rw [renditionCodes?_number_cons]
      by_cases small : value < 256 <;> simp [small]

theorem exists_renditionCodes?_read_iff (parts : List (List Char)) :
    (∃ codes, renditionCodes? (parts.map Parameter.read) = some codes)
      ↔ ∀ part ∈ parts, ∃ value, Numeral part value ∧ value ≤ 255 := by
  rw [exists_renditionCodes?_iff, List.forall_mem_map]
  refine forall₂_congr fun part _ => exists_congr fun value => ?_
  rw [and_comm, Nat.lt_succ_iff]
  refine and_congr_left fun small => ?_
  exact Parameter.read_eq_number_iff (Nat.lt_of_le_of_lt small (by decide))

theorem ofParameters_rendition_iff {parameters : List Parameter} (some? : parameters ≠ [])
    (command : Command) :
    ofParameters parameters .rendition = .ok command
      ↔ ∃ codes, renditionCodes? parameters = some codes ∧ .rendition codes = command := by
  rw [ofParameters, if_neg (by simpa using some?)]
  cases renditionCodes? parameters <;> simp

end Command

/-! ## Amounts and coordinates -/

/-- The number that a command takes from a place among its parameters.  A positive numeral there
    gives its value, held at the largest. -/
def Parameter.Yields (parts : List (List Char)) (index number : Nat) : Prop :=
  ∀ part ∈ parts[index]?, ∀ value, Numeral part value → 1 ≤ value → number = min value 0xFFFFFFFF

theorem Parameter.yields_positive (parts : List (List Char)) (index : Nat) :
    Yields parts index (Command.positive (parts.map read)[index]?) := by
  intro part there value numeral positive
  have held : 1 ≤ min value largest := Nat.le_min.mpr ⟨positive, by decide⟩
  rw [Command.positive, List.getElem?_map, Option.mem_def.mp there, Option.map_some,
    Option.getD_some, read_of_numeral numeral, Parameter.positive, Nat.max_eq_left held]
  rfl

/-! ## Sequences -/

namespace Collector

/-- The text of a sequence before its final letter, without the blanks around it. -/
def text (inside : List UInt8) : List Char := Text.trim (Text.Utf8.decode (payload inside))

section

variable {collector : Collector} {inside : List UInt8} {body : List Char}
  (unended : Unended collector.strict inside) (begins : text inside = '[' :: body)

include unended begins

/-- A control sequence is read as what its letter makes of its parameters. -/
theorem read_control_iff {letter : UInt8} {kind : Command.Control}
    (known : Command.Family.ofLetter? letter = some (.control kind)) {parameters : List Parameter}
    (parsed : Command.parameters? ('[' :: body) = some parameters) (command : Command) :
    collector.read (inside ++ [letter]) = (collector.reset, some (.ok command))
      ↔ Command.ofParameters parameters kind = .ok command := by
  have answered := read_of_ends unended
    (ends_of_isTerminator (Command.isTerminator_of_ofLetter? known)) []
  have meaning : Command.ofSequence letter (payload inside) = .ok command
      ↔ Command.ofParameters parameters kind = .ok command := by
    rw [text] at begins
    simp only [Command.ofSequence, known, begins, Command.ofFamily, parsed]
    cases Command.ofParameters parameters kind <;> simp
  rw [answered, ← meaning]
  simp

theorem read_reset (nothing : body = []) :
    collector.read (inside ++ [0x6D]) = (collector.reset, some (.ok (.rendition [0]))) := by
  subst nothing
  exact (read_control_iff unended begins rfl rfl _).mpr rfl

variable (nonempty : body ≠ [])

include nonempty

theorem read_rendition_iff (command : Command) :
    collector.read (inside ++ [0x6D]) = (collector.reset, some (.ok command))
      ↔ ∃ codes, Command.renditionCodes? ((body.splitOn ';').map Parameter.read) = some codes
        ∧ .rendition codes = command := by
  have some? : (body.splitOn ';').map Parameter.read ≠ [] := by
    rw [ne_eq, List.map_eq_nil_iff]
    exact List.splitOn_ne_nil ';' body
  rw [read_control_iff unended begins rfl (Command.parameters?_of_ne_nil nonempty),
    Command.ofParameters_rendition_iff some?]

/-- A rendition is accepted exactly if each of its parts is a numeral of a byte. -/
theorem exists_read_rendition_iff :
    (∃ command, collector.read (inside ++ [0x6D]) = (collector.reset, some (.ok command)))
      ↔ ∀ part ∈ body.splitOn ';', ∃ value, Numeral part value ∧ value ≤ 255 := by
  rw [← Command.exists_renditionCodes?_read_iff]
  constructor
  · rintro ⟨command, answered⟩
    obtain ⟨codes, spelled, -⟩ := (read_rendition_iff unended begins nonempty command).mp answered
    exact ⟨codes, spelled⟩
  · rintro ⟨codes, spelled⟩
    exact ⟨_, (read_rendition_iff unended begins nonempty _).mpr ⟨codes, spelled, rfl⟩⟩

theorem read_rendition_of_numerals {codes : List Nat}
    (numerals : List.Forall₂ Numeral (body.splitOn ';') codes) (bytes : ∀ code ∈ codes, code ≤ 255) :
    collector.read (inside ++ [0x6D]) = (collector.reset, some (.ok (.rendition codes))) := by
  have spelled := Command.renditionCodes?_of_numerals numerals fun code member =>
    Nat.lt_succ_of_le (bytes code member)
  exact (read_rendition_iff unended begins nonempty _).mpr ⟨codes, spelled, rfl⟩

theorem exists_read_motion (direction : Direction) (single : (body.splitOn ';').length ≤ 1) :
    ∃ amount,
      collector.read (inside ++ [direction.letter])
          = (collector.reset, some (.ok (.move direction amount)))
        ∧ Parameter.Yields (body.splitOn ';') 0 amount := by
  refine ⟨_, ?_, Parameter.yields_positive _ 0⟩
  rw [read_control_iff unended begins (Command.ofLetter?_letter direction)
    (Command.parameters?_of_ne_nil nonempty), Command.ofParameters, if_neg (by simpa using single)]

theorem exists_read_place {letter : UInt8}
    (known : Command.Family.ofLetter? letter = some (.control .place))
    (few : (body.splitOn ';').length ≤ 2) :
    ∃ row column,
      collector.read (inside ++ [letter]) = (collector.reset, some (.ok (.place row column)))
        ∧ Parameter.Yields (body.splitOn ';') 0 row
        ∧ Parameter.Yields (body.splitOn ';') 1 column := by
  refine ⟨_, _, ?_, Parameter.yields_positive _ 0, Parameter.yields_positive _ 1⟩
  rw [read_control_iff unended begins known (Command.parameters?_of_ne_nil nonempty),
    Command.ofParameters, if_neg (by simpa using few)]

end

/-- Numbers are exact up to the largest that a parameter can hold, are held there and never wrap
    around.  A text of decimal digits, however many and with zeros in front or not, with blanks
    around it or not, is read as its value or as the largest number.  Blanks alone are read as
    nothing, and any other text is invalid.

    So let a sequence have a bracket and a text after it.  As a graphic rendition it is accepted
    exactly if each of the parts between its semicolons is such a numeral with a value up to 255,
    and these values are its codes.  A motion takes its amount, and a placement its row and its
    column, from the numeral at their place if it is positive, held at the largest number.
    Without a text after the bracket a rendition is a reset. -/
theorem numbers_never_wrap :
    (∀ text value, Numeral text value → Parameter.read text = .number (min value 0xFFFFFFFF))
      ∧ (∀ text, (∀ c ∈ text, Text.isBlank c) → Parameter.read text = .absent)
      ∧ (∀ text, (∃ c ∈ text, Text.isBlank c = false) → (∀ value, ¬ Numeral text value) →
          Parameter.read text = .invalid)
      ∧ ∀ (collector : Collector) (inside : List UInt8) (body : List Char),
          Unended collector.strict inside → text inside = '[' :: body →
          let answers (letter : UInt8) (command : Command) : Prop :=
            collector.read (inside ++ [letter]) = (collector.reset, some (.ok command))
          let parts := body.splitOn ';'
          (body = [] → answers 0x6D (.rendition [0]))
            ∧ (body ≠ [] →
              ((∃ command, answers 0x6D command)
                  ↔ ∀ part ∈ parts, ∃ value, Numeral part value ∧ value ≤ 255)
              ∧ (∀ codes, List.Forall₂ Numeral parts codes → (∀ code ∈ codes, code ≤ 255) →
                  answers 0x6D (.rendition codes))
              ∧ (∀ direction : Direction, parts.length ≤ 1 →
                  ∃ amount, answers direction.letter (.move direction amount)
                    ∧ Parameter.Yields parts 0 amount)
              ∧ ∀ letter ∈ [0x48, 0x66], parts.length ≤ 2 →
                  ∃ row column, answers letter (.place row column)
                    ∧ Parameter.Yields parts 0 row ∧ Parameter.Yields parts 1 column) := by
  refine ⟨fun _ _ => Parameter.read_of_numeral, fun _ => Parameter.read_of_blank,
    fun _ => Parameter.read_of_not_numeral, ?_⟩
  intro collector inside body unended begins answers parts
  refine ⟨read_reset unended begins, fun nonempty => ?_⟩
  refine ⟨exists_read_rendition_iff unended begins nonempty,
    fun codes => read_rendition_of_numerals unended begins nonempty,
    exists_read_motion unended begins nonempty, ?_⟩
  intro letter position
  have known : Command.Family.ofLetter? letter = some (.control .place) := by
    simp only [List.mem_cons, List.not_mem_nil, or_false] at position
    rcases position with rfl | rfl <;> rfl
  exact exists_read_place unended begins nonempty known

/-- One more than 32 bits can hold, with zeros in front.  It would wrap around to zero. -/
theorem numbers_never_wrap_past_32_bits :
    Parameter.read "\u00a0004294967296 ".toList = .number 4294967295
      ∧ read {} [0x5B, 0x30, 0x34, 0x32, 0x39, 0x34, 0x39, 0x36, 0x37, 0x32, 0x39, 0x36, 0x42]
        = ({}, some (.ok (.move .down 4294967295)))
      ∧ ∀ command,
        read {} [0x5B, 0x30, 0x34, 0x32, 0x39, 0x34, 0x39, 0x36, 0x37, 0x32, 0x39, 0x36, 0x6D]
          ≠ ({}, some (.ok command)) := by
  have padded : Numeral "\u00a0004294967296 ".toList 4294967296 :=
    Parameter.numeral_iff.mpr
      ⟨by decide, List.all_eq_true.mp (by decide : List.all _ Char.isDigit = true), by decide⟩
  have numeral : Numeral "04294967296".toList 4294967296 :=
    Parameter.numeral_iff.mpr
      ⟨by decide, List.all_eq_true.mp (by decide : List.all _ Char.isDigit = true), by decide⟩
  have unended : Unended false
      [0x5B, 0x30, 0x34, 0x32, 0x39, 0x34, 0x39, 0x36, 0x37, 0x32, 0x39, 0x36] :=
    (read_eq_none_iff {} _).mp rfl
  have sequence := numbers_never_wrap.2.2.2 {} _ "04294967296".toList unended (by decide +kernel)
  obtain ⟨accepted, -, motion, -⟩ := sequence.2 (by decide)
  refine ⟨numbers_never_wrap.1 _ _ padded, ?_, ?_⟩
  · obtain ⟨amount, answered, yields⟩ := motion .down (by decide)
    obtain rfl := yields _ rfl _ numeral (by decide)
    exact answered
  · intro command answered
    obtain ⟨value, other, small⟩ := accepted.mp ⟨command, answered⟩ "04294967296".toList (by decide)
    have same := (Parameter.numeral_iff.mp other).2.2.symm.trans (Parameter.numeral_iff.mp numeral).2.2
    omega

end Collector

end AnsiCanvas
