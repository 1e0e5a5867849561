import AnsiCanvas.Proofs.Escape.Range
import AnsiCanvas.Proofs.Escape.Segment
import AnsiCanvas.Proofs.Pen.ReadBack

/-! # Writing commands

Every command has one canonical sequence.  Reading gives exactly the commands that are
normalized, with numbers that a parameter can hold and letters that are known, and each of
them is read back from its canonical sequence, by a strict collector as by a lenient one.
-/

namespace AnsiCanvas

/-! ## Canonical sequences -/

/-- The final letter of a motion. -/
def Direction.letter : Direction → UInt8
  | up => 0x41
  | down => 0x42
  | forward => 0x43
  | back => 0x44

/-- The parameter that names how much of the screen is erased. -/
def DisplayErase.mode : DisplayErase → Nat
  | toEnd => 0
  | toStart => 1
  | all => 2
  | scrollback => 3

/-- The parameter that names how much of a row is erased. -/
def LineErase.mode : LineErase → Nat
  | toEnd => 0
  | toStart => 1
  | all => 2

namespace Command

/-- A bracket, numbers in decimal between semicolons, and a letter. -/
def sequence (values : List Nat) (letter : UInt8) : List UInt8 :=
  Text.Utf8.encode (controlText values) ++ [letter]

/-- The bytes after the escape character that spell a command. -/
def canonical : Command → List UInt8
  | move direction amount => sequence [amount] direction.letter
  | place row column => sequence [row, column] 0x48
  | eraseDisplay extent => sequence [extent.mode] 0x4A
  | eraseLine extent => sequence [extent.mode] 0x4B
  | save => sequence [] 0x73
  | restore => sequence [] 0x75
  | rendition codes => sequence codes 0x6D
  | ignored letter | unhandled letter => [letter]

/-- A command as it can be asked for: amounts and coordinates from one to the largest
    parameter, at least one code, codes of a byte, and letters that are known to have no
    effect or none that can be had. -/
def Normalized : Command → Prop
  | move _ amount => 1 ≤ amount ∧ amount ≤ 0xFFFFFFFF
  | place row column => (1 ≤ row ∧ row ≤ 0xFFFFFFFF) ∧ 1 ≤ column ∧ column ≤ 0xFFFFFFFF
  | rendition codes => codes ≠ [] ∧ ∀ code ∈ codes, code ≤ 255
  | ignored letter => Char.ofNat letter.toNat ∈ ['E', 'F', 'G', 'S', 'T', 'h', 'l']
  | unhandled letter =>
    Char.ofNat letter.toNat ∈ ['N', 'O', 'P', 'X', '\x5c', ']', '^', '_', 'c']
  | eraseDisplay _ | eraseLine _ | save | restore => True

/-! ## Range -/

theorem ofLetter?_eq_ignored_iff (letter : UInt8) :
    Family.ofLetter? letter = some .ignored
      ↔ Char.ofNat letter.toNat ∈ ['E', 'F', 'G', 'S', 'T', 'h', 'l'] := by
  rw [Family.ofLetter?]
  generalize Char.ofNat letter.toNat = name
  constructor
  · intro known
    split at known <;> simp_all
  · simp only [List.mem_cons, List.not_mem_nil, or_false]
    rintro (rfl | rfl | rfl | rfl | rfl | rfl | rfl) <;> rfl

theorem ofLetter?_eq_bare_iff (letter : UInt8) :
    Family.ofLetter? letter = some .bare
      ↔ Char.ofNat letter.toNat ∈ ['N', 'O', 'P', 'X', '\x5c', ']', '^', '_', 'c'] := by
  rw [Family.ofLetter?]
  generalize Char.ofNat letter.toNat = name
  constructor
  · intro known
    split at known <;> simp_all
  · simp only [List.mem_cons, List.not_mem_nil, or_false]
    rintro (rfl | rfl | rfl | rfl | rfl | rfl | rfl | rfl | rfl) <;> rfl

theorem ofLetter?_letter (direction : Direction) :
    Family.ofLetter? direction.letter = some (.control (.motion direction)) := by
  cases direction <;> rfl

theorem normalized_of_inRange {command : Command} (inRange : command.InRange) :
    command.Normalized := by
  cases command with
  | move | place => exact inRange
  | rendition codes =>
    exact ⟨inRange.1, fun code member => Nat.le_of_lt_succ (inRange.2 code member)⟩
  | ignored letter => exact (ofLetter?_eq_ignored_iff letter).mp inRange
  | unhandled letter => exact (ofLetter?_eq_bare_iff letter).mp inRange
  | eraseDisplay | eraseLine | save | restore => trivial

/-! ## Reading back -/

theorem positive_number {value : Nat} (low : 1 ≤ value) (high : value ≤ Parameter.largest) :
    positive (some (.number (min value Parameter.largest))) = value := by
  rw [positive, Option.getD_some, Parameter.positive, Nat.min_eq_left high, Nat.max_eq_left low]

theorem read_sequence (collector : Collector) {letter : UInt8} {kind : Control}
    (family : Family.ofLetter? letter = some (.control kind)) {values : List Nat}
    {command : Command}
    (meaning : ofSequence letter (Text.Utf8.encode (controlText values)) = .ok command) :
    collector.read (sequence values letter) = (collector.reset, some (.ok command)) := by
  have terminator := isTerminator_of_ofLetter? family
  have printable : 0x20 ≤ letter :=
    UInt8.le_trans (by decide) (Collector.le_of_isTerminator terminator)
  rw [sequence, collector.read_controlText values terminator printable, meaning]

/-- A letter on its own means what its family makes of nothing. -/
theorem read_letter (collector : Collector) {letter : UInt8} {family : Family}
    (known : Family.ofLetter? letter = some family) {command : Command}
    (meaning : ofFamily letter [] family = .ok command) :
    collector.read [letter] = (collector.reset, some (.ok command)) := by
  have terminator := isTerminator_of_ofLetter? known
  have trimmed : Text.trim (Text.Utf8.decode []) = [] := rfl
  have ends := Collector.read_of_ends (Collector.unended_nil collector.strict)
    (Collector.ends_of_isTerminator terminator) []
  rw [List.nil_append] at ends
  rw [ends, Collector.payload_nil, ofSequence, known]
  simp only [trimmed, meaning]

/-- A normalized command is read back from its canonical sequence. -/
theorem read_canonical {command : Command} (normalized : command.Normalized)
    (collector : Collector) :
    collector.read command.canonical = (collector.reset, some (.ok command)) := by
  cases command with
  | move direction amount =>
    have meaning : ofParameters [.number (min amount Parameter.largest)] (.motion direction)
        = .ok (.move direction amount) :=
      congrArg (fun value => Except.ok (Command.move direction value))
        (positive_number normalized.1 normalized.2)
    have known := ofLetter?_letter direction
    exact read_sequence collector known (ofSequence_controlText known meaning)
  | place row column =>
    obtain ⟨⟨rowLow, rowHigh⟩, columnLow, columnHigh⟩ := normalized
    have meaning : ofParameters [.number (min row Parameter.largest),
        .number (min column Parameter.largest)] .place = .ok (.place row column) :=
      congrArg₂ (fun row column => Except.ok (Command.place row column))
        (positive_number rowLow rowHigh) (positive_number columnLow columnHigh)
    exact read_sequence collector rfl (ofSequence_controlText rfl meaning)
  | eraseDisplay extent =>
    cases extent <;> exact read_sequence collector rfl (ofSequence_controlText rfl rfl)
  | eraseLine extent =>
    cases extent <;> exact read_sequence collector rfl (ofSequence_controlText rfl rfl)
  | save => exact read_sequence collector rfl (ofSequence_controlText rfl rfl)
  | restore => exact read_sequence collector rfl (ofSequence_controlText rfl rfl)
  | rendition codes =>
    have bytes : ∀ code ∈ codes, code < 256 := fun code member =>
      Nat.lt_succ_of_le (normalized.2 code member)
    exact read_sequence collector rfl (ofSequence_rendition normalized.1 bytes)
  | ignored letter =>
    exact read_letter collector ((ofLetter?_eq_ignored_iff letter).mpr normalized) rfl
  | unhandled letter =>
    exact read_letter collector ((ofLetter?_eq_bare_iff letter).mpr normalized) rfl

end Command

namespace Collector

theorem feedAll_inRange {collector : Collector} {bytes : List UInt8} {command : Command}
    (answered : (collector.feedAll bytes).2 = some (.ok command)) : command.InRange := by
  induction bytes generalizing collector with
  | nil => cases answered
  | cons byte bytes ih =>
    rw [feedAll] at answered
    split at answered
    · exact ih answered
    · next next answer fed =>
      obtain rfl := Option.some.inj answered
      exact feed_inRange (congrArg Prod.snd fed)

/-- Reading and writing commands fit together.  The commands that some collector reads from
    some bytes are the normalized ones, and each of these is read back from its canonical
    sequence, whatever the collector has seen before and whether it is strict. -/
theorem read_iff_normalized (command : Command) :
    ((∃ (collector : Collector) (bytes : List UInt8),
          (collector.read bytes).2 = some (.ok command)) ↔ command.Normalized)
      ∧ (command.Normalized → ∀ collector : Collector,
          collector.read command.canonical = (collector.reset, some (.ok command))) := by
  refine ⟨⟨?_, fun normalized => ?_⟩, Command.read_canonical⟩
  · rintro ⟨collector, bytes, answered⟩
    exact Command.normalized_of_inRange (feedAll_inRange answered)
  · exact ⟨{}, command.canonical, congrArg Prod.snd (Command.read_canonical normalized {})⟩

theorem read_canonical_of_far_place :
    (Command.place 4294967295 7).Normalized
      ∧ read { strict := true } (Command.place 4294967295 7).canonical
          = ({ strict := true }, some (.ok (.place 4294967295 7))) := by
  have normalized : (Command.place 4294967295 7).Normalized := by
    refine ⟨⟨?_, ?_⟩, ?_, ?_⟩ <;> decide
  exact ⟨normalized, (read_iff_normalized _).2 normalized { strict := true }⟩

end Collector

end AnsiCanvas
