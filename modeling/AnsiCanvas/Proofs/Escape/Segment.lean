import AnsiCanvas.Proofs.Escape.Written
import Mathlib.Data.List.Induction

/-! # Where an escape sequence ends

A sequence ends at the first byte that can end one, and its meaning depends on that byte
and on what is collected before it, the printable bytes since the last escape character.
Other control characters, what an escape character cuts off and whatever follows the
ending byte leave no trace.

The inductions are on the bytes from their end, so that the bytes before the one at hand
are those of the smaller case.  They are carried by `payload`, which says what an open
collector holds.
-/

namespace AnsiCanvas

/-! ## Terminators and families -/

namespace Command

/-- The bytes that end a sequence are the letters that choose a family. -/
theorem isSome_ofLetter? (letter : UInt8) :
    (Family.ofLetter? letter).isSome = Collector.isTerminator letter := by
  have letters : Collector.terminators.toList
      = ['c', 'f', 'h', 'l', 'm', 's', 'u', 'A', 'B', 'C', 'D', 'E', 'F', 'G', 'H', 'J', 'K', 'N',
          'O', 'P', 'S', 'T', 'X', '\x5c', ']', '^', '_'] := by decide
  rw [Family.ofLetter?, Collector.isTerminator, letters]
  generalize Char.ofNat letter.toNat = name
  split <;> simp_all

theorem isTerminator_of_ofLetter? {letter : UInt8} {family : Family}
    (known : Family.ofLetter? letter = some family) : Collector.isTerminator letter = true := by
  rw [← isSome_ofLetter?, known]
  rfl

/-- Only what ends in another byte than a terminator is refused for that byte. -/
theorem ofSequence_eq_unknownTerminator_iff (letter : UInt8) (bytes : List UInt8) :
    (∃ byte sequence, ofSequence letter bytes = .error (.unknownTerminator byte sequence))
      ↔ Collector.isTerminator letter = false := by
  rw [← isSome_ofLetter?, ofSequence]
  cases Family.ofLetter? letter with
  | none => simp
  | some family =>
    cases read : ofFamily letter (Text.trim (Text.Utf8.decode bytes)) family <;> simp [read]

theorem ofSequence_of_not_isTerminator {letter : UInt8}
    (foreign : Collector.isTerminator letter = false) (bytes : List UInt8) :
    ofSequence letter bytes
      = .error (.unknownTerminator letter (String.ofList (Text.Utf8.decode bytes))) := by
  rw [← isSome_ofLetter?, Option.isSome_eq_false_iff, Option.isNone_iff_eq_none] at foreign
  simp only [ofSequence, foreign]

end Command

namespace Collector

/-! ## Endings -/

/-- What is collected of bytes that end no sequence: the printable ones after the last
    escape character. -/
def payload (bytes : List UInt8) : List UInt8 :=
  (bytes.reverse.takeWhile (· ≠ 0x1B)).reverse.filter (0x20 ≤ ·)

/-- Whether a byte ends the sequence that the bytes before it leave open.  A lenient
    collector waits for a terminator.  A strict one stops at every byte from `@` on, but
    for the bracket with which a control sequence begins. -/
def Ends (strict : Bool) (before : List UInt8) (byte : UInt8) : Prop :=
  if strict then 0x40 ≤ byte ∧ ¬ (byte = 0x5B ∧ payload before = []) else isTerminator byte

instance (strict : Bool) (before : List UInt8) (byte : UInt8) :
    Decidable (Ends strict before byte) :=
  inferInstanceAs (Decidable (if strict then 0x40 ≤ byte ∧ ¬ (byte = 0x5B ∧ payload before = [])
    else isTerminator byte))

/-- Bytes among which none ends a sequence. -/
def Unended (strict : Bool) (bytes : List UInt8) : Prop :=
  ∀ before byte, before ++ [byte] <+: bytes → ¬ Ends strict before byte

@[simp] theorem payload_nil : payload [] = [] := rfl

theorem payload_concat (bytes : List UInt8) (byte : UInt8) :
    payload (bytes ++ [byte])
      = if byte = 0x1B then []
        else if byte < 0x20 then payload bytes
        else payload bytes ++ [byte] := by
  rw [payload, List.reverse_append, List.reverse_singleton, List.singleton_append]
  by_cases escape : byte = 0x1B
  · simp [escape]
  · rw [if_neg escape, List.takeWhile_cons_of_pos (by simpa using escape), List.reverse_cons,
      List.filter_append, ← payload]
    by_cases control : byte < 0x20
    · simp [control, UInt8.not_le.mpr control]
    · simp [control, UInt8.not_lt.mp control]

theorem unended_nil (strict : Bool) : Unended strict [] := by
  intro before byte within
  simp at within

theorem unended_concat {strict : Bool} {bytes : List UInt8} {byte : UInt8} :
    Unended strict (bytes ++ [byte]) ↔ Unended strict bytes ∧ ¬ Ends strict bytes byte := by
  constructor
  · intro unended
    refine ⟨fun before other within => ?_, unended bytes byte List.prefix_rfl⟩
    exact unended before other (within.trans (List.prefix_append _ _))
  · rintro ⟨unended, continues⟩ before other within
    rcases List.prefix_concat_iff.mp within with equal | within
    · obtain ⟨rfl, rfl⟩ := List.append_singleton_inj.mp equal
      exact continues
    · exact unended before other within

/-- Bytes end no sequence, or there is a first one that does. -/
theorem unended_or_exists_ends (strict : Bool) (bytes : List UInt8) :
    Unended strict bytes
      ∨ ∃ before ending after, bytes = before ++ ending :: after ∧ Unended strict before
          ∧ Ends strict before ending := by
  induction bytes using List.reverseRecOn with
  | nil => exact .inl (unended_nil strict)
  | append_singleton bytes byte ih =>
    rcases ih with unended | ⟨before, ending, after, rfl, unended, ends⟩
    · by_cases ends : Ends strict bytes byte
      · exact .inr ⟨bytes, byte, [], rfl, unended, ends⟩
      · exact .inl (unended_concat.mpr ⟨unended, ends⟩)
    · exact .inr ⟨before, ending, after ++ [byte], by simp, unended, ends⟩

theorem not_ends_of_lt {strict : Bool} {before : List UInt8} {byte : UInt8} (low : byte < 0x40) :
    ¬ Ends strict before byte := by
  cases strict with
  | false => simp [Ends, isTerminator_of_lt low]
  | true => exact fun ends => UInt8.not_le.mpr low ends.1

theorem le_of_isTerminator {byte : UInt8} (terminator : isTerminator byte) : 0x40 ≤ byte := by
  refine UInt8.not_lt.mp fun low => ?_
  rw [isTerminator_of_lt low] at terminator
  cases terminator

theorem ends_of_isTerminator {strict : Bool} {before : List UInt8} {byte : UInt8}
    (terminator : isTerminator byte) : Ends strict before byte := by
  cases strict with
  | false => exact terminator
  | true =>
    refine ⟨le_of_isTerminator terminator, ?_⟩
    -- The bracket that begins a control sequence is no terminator.
    rintro ⟨rfl, -⟩
    revert terminator
    decide

theorem isForeignFinal_iff {byte : UInt8} {first : Bool} :
    isForeignFinal byte first ↔ 0x40 ≤ byte ∧ ¬ (byte = 0x5B ∧ first) := by
  -- Bytes past the tilde are far from the bracket.
  have above : 0x7F ≤ byte → 0x40 ≤ byte ∧ byte ≠ 0x5B := by
    intro high
    refine ⟨UInt8.le_trans (by decide) high, ?_⟩
    rintro rfl
    revert high
    decide
  simp only [isForeignFinal, Bool.or_eq_true, Bool.and_eq_true, decide_eq_true_eq,
    Bool.not_eq_true', Bool.and_eq_false_iff, beq_eq_false_iff_ne]
  grind

theorem ends_iff_of_not_isTerminator {strict : Bool} {before : List UInt8} {byte : UInt8}
    (other : isTerminator byte = false) :
    Ends strict before byte ↔ (strict && isForeignFinal byte (payload before).isEmpty) := by
  cases strict with
  | false => simp [Ends, other]
  | true => rw [Bool.true_and, isForeignFinal_iff, List.isEmpty_iff, Ends, if_pos rfl]

/-! ## Reading -/

/-- Whether a byte can matter to a sequence. -/
def isSignificant (byte : UInt8) : Bool := byte == 0x1B || 0x20 ≤ byte

/-- What an open collector does with a byte. -/
theorem feed_payload (strict : Bool) (before : List UInt8) (byte : UInt8) :
    feed ⟨strict, some (payload before).toArray⟩ byte
      = if Ends strict before byte then
          (⟨strict, none⟩, some (Command.ofSequence byte (payload before)))
        else (⟨strict, some (payload (before ++ [byte])).toArray⟩, none) := by
  rw [feed, payload_concat]
  by_cases escape : byte = 0x1B
  · have silent : ¬ Ends strict before byte := not_ends_of_lt (by simp [escape])
    rw [if_neg silent, if_pos escape, if_pos escape]
  · by_cases control : byte < 0x20
    · have silent : ¬ Ends strict before byte :=
        not_ends_of_lt (UInt8.lt_trans control (by decide))
      rw [if_neg silent, if_neg escape, if_neg escape, if_pos control, if_pos control]
    · rw [if_neg escape, if_neg escape, if_neg control, if_neg control]
      cases terminator : isTerminator byte with
      | true => rw [if_pos (ends_of_isTerminator terminator), if_pos rfl]
      | false =>
        rw [if_neg Bool.false_ne_true, Command.ofSequence_of_not_isTerminator terminator]
        simp [ends_iff_of_not_isTerminator terminator]

theorem read_of_unended {collector : Collector} {bytes : List UInt8}
    (unended : Unended collector.strict bytes) :
    collector.read bytes = (⟨collector.strict, some (payload bytes).toArray⟩, none) := by
  induction bytes using List.reverseRecOn with
  | nil => rfl
  | append_singleton bytes byte ih =>
    obtain ⟨unended, continues⟩ := unended_concat.mp unended
    have before := ih unended
    rw [read] at before ⊢
    rw [feedAll_append, before]
    simp only [feedAll, feed_payload, if_neg continues]

theorem read_of_ends {collector : Collector} {before : List UInt8} {ending : UInt8}
    (unended : Unended collector.strict before) (ends : Ends collector.strict before ending)
    (after : List UInt8) :
    collector.read (before ++ ending :: after)
      = (collector.reset, some (Command.ofSequence ending (payload before))) := by
  have opened := read_of_unended unended
  rw [read] at opened ⊢
  rw [feedAll_append, opened]
  simp only [feedAll, feed_payload, if_pos ends, reset]

/-- A sequence stays open exactly if none of its bytes ends it. -/
theorem read_eq_none_iff (collector : Collector) (bytes : List UInt8) :
    (collector.read bytes).2 = none ↔ Unended collector.strict bytes := by
  constructor
  · intro silent
    rcases unended_or_exists_ends collector.strict bytes with
      unended | ⟨before, ending, after, rfl, unended, ends⟩
    · exact unended
    · rw [read_of_ends unended ends] at silent
      cases silent
  · intro unended
    rw [read_of_unended unended]

theorem feed_of_not_isSignificant {byte : UInt8} (idle : isSignificant byte = false)
    (collector : Collector) : collector.feed byte = (collector, none) := by
  obtain ⟨strict, _ | bytes⟩ := collector
  · rfl
  · obtain ⟨notEscape, control⟩ : byte ≠ 0x1B ∧ byte < 0x20 := by simpa [isSignificant] using idle
    rw [feed, if_neg notEscape, if_pos control]

theorem feedAll_filter (collector : Collector) (bytes : List UInt8) :
    collector.feedAll (bytes.filter isSignificant) = collector.feedAll bytes := by
  induction bytes generalizing collector with
  | nil => rfl
  | cons byte bytes ih =>
    cases significant : isSignificant byte with
    | false => simp only [List.filter_cons, significant, feedAll, feed_of_not_isSignificant, ih,
        Bool.false_eq_true, ↓reduceIte]
    | true => simp only [List.filter_cons, significant, feedAll, ih, ↓reduceIte]

/-- An escape character inside a sequence begins it anew. -/
theorem read_of_restart {collector : Collector} {before : List UInt8}
    (unended : Unended collector.strict before) (after : List UInt8) :
    collector.read (before ++ 0x1B :: after) = collector.read after := by
  have opened := read_of_unended unended
  rw [read] at opened
  rw [read, feedAll_append, opened]
  rfl

/-- Where a sequence ends and on what its meaning depends, whatever the collector has seen
    before.  Either no byte ends the sequence and the collector stays open, or the first
    that does closes it.  The answer then comes from that byte and the payload before it,
    and the byte is refused as an unknown terminator exactly if it is none.  Bytes that are
    not significant and what an escape character cuts off are of no consequence. -/
theorem read_segment (collector : Collector) (bytes : List UInt8) :
    (Unended collector.strict bytes ∧ (collector.read bytes).2 = none
          ∧ (collector.read bytes).1.isOpen
        ∨ ∃ before ending after, bytes = before ++ ending :: after
            ∧ Unended collector.strict before ∧ Ends collector.strict before ending
            ∧ (∀ others, collector.read (before ++ ending :: others)
                = (collector.reset, some (Command.ofSequence ending (payload before))))
            ∧ ((∃ byte sequence, Command.ofSequence ending (payload before)
                  = .error (.unknownTerminator byte sequence))
                ↔ isTerminator ending = false)
            ∧ (isTerminator ending = false → collector.strict))
      ∧ (∀ others : List UInt8, others.filter isSignificant = bytes.filter isSignificant →
          collector.read others = collector.read bytes)
      ∧ (∀ before after, bytes = before ++ 0x1B :: after → Unended collector.strict before →
          collector.read bytes = collector.read after) := by
  refine ⟨?_, fun others same => ?_, ?_⟩
  · rcases unended_or_exists_ends collector.strict bytes with
      unended | ⟨before, ending, after, equal, unended, ends⟩
    · left
      rw [read_of_unended unended]
      exact ⟨unended, rfl, rfl⟩
    · refine .inr ⟨before, ending, after, equal, unended, ends, read_of_ends unended ends,
        Command.ofSequence_eq_unknownTerminator_iff _ _, fun foreign => ?_⟩
      have both := (ends_iff_of_not_isTerminator foreign).mp ends
      exact (Bool.and_eq_true_iff.mp both).1
  · rw [read, ← feedAll_filter, same, feedAll_filter, read]
  · rintro before after rfl unended
    exact read_of_restart unended after

theorem read_segment_restarted :
    read ⟨true, some #[0x35]⟩ [0x5B, 0x33, 0x1B, 0x07, 0x5B, 0x00, 0x32, 0x41, 0x42]
      = (⟨true, none⟩, some (.ok (.move .up 2))) := by
  have unended : Unended true [0x5B, 0x33] :=
    unended_concat.mpr ⟨unended_concat.mpr ⟨unended_nil true, by decide⟩, by decide⟩
  have restarted := (read_segment ⟨true, some #[0x35]⟩
    [0x5B, 0x33, 0x1B, 0x07, 0x5B, 0x00, 0x32, 0x41, 0x42]).2.2 [0x5B, 0x33] _ rfl unended
  have cleaned := (read_segment ⟨true, some #[0x35]⟩ [0x5B, 0x32, 0x41, 0x42]).2.1
    [0x07, 0x5B, 0x00, 0x32, 0x41, 0x42] (by decide)
  rw [restarted, cleaned]
  decide +kernel

end Collector

end AnsiCanvas
