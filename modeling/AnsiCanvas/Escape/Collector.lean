import AnsiCanvas.Escape.Command

/-! # Collecting escape sequences

After the escape character, bytes are collected until one ends the sequence.  The
bytes that end one form a closed set.  A strict collector also stops at any other
byte that could end a control sequence elsewhere, and rejects it.
-/

namespace AnsiCanvas

structure Collector where
  /-- Whether foreign final bytes end a sequence. -/
  strict : Bool := false
  /-- The bytes since the escape character, while a sequence is open. -/
  collected : Option (Array UInt8) := none
  deriving DecidableEq, Repr

namespace Collector

instance : Inhabited Collector := ⟨{}⟩

def terminators : String := "cfhlmsuABCDEFGHJKNOPSTX\\]^_"

def isTerminator (byte : UInt8) : Bool :=
  terminators.toList.contains (Char.ofNat byte.toNat)

/-- Whether a byte would end a sequence on other terminals.  The bracket that opens
    a control sequence does not. -/
def isForeignFinal (byte : UInt8) (first : Bool) : Bool :=
  0x7F ≤ byte || (0x40 ≤ byte && !(byte == 0x5B && first))

def isOpen (collector : Collector) : Bool := collector.collected.isSome

/-- Opens a sequence, abandoning any that is open. -/
def begin (collector : Collector) : Collector := { collector with collected := some #[] }

def reset (collector : Collector) : Collector := { collector with collected := none }

/-- Takes a byte.  While the sequence stays open there is no answer; outside of one
    the byte is dropped.  Control characters inside a sequence are dropped too, but
    the escape character opens a new one. -/
def feed (collector : Collector) (byte : UInt8) :
    Collector × Option (Except EscapeError Command) :=
  match collector with
  | ⟨strict, none⟩ => (⟨strict, none⟩, none)
  | ⟨strict, some bytes⟩ =>
    if byte = 0x1B then
      -- What was collected so far is lost without a word.
      (⟨strict, some #[]⟩, none)
    else if byte < 0x20 then
      (⟨strict, some bytes⟩, none)
    else if isTerminator byte then
      (⟨strict, none⟩, some (Command.ofSequence byte bytes.toList))
    else if strict && isForeignFinal byte bytes.isEmpty then
      (⟨strict, none⟩,
        some (.error (.unknownTerminator byte (String.ofList (Text.Utf8.decode bytes.toList)))))
    else
      (⟨strict, some (bytes.push byte)⟩, none)

/-- Takes bytes up to the one that ends the open sequence. -/
def feedAll (collector : Collector) :
    List UInt8 → Collector × Option (Except EscapeError Command)
  | [] => (collector, none)
  | byte :: rest =>
    match collector.feed byte with
    | (collector, none) => feedAll collector rest
    | (collector, some answer) => (collector, some answer)

def read (collector : Collector) (bytes : List UInt8) :
    Collector × Option (Except EscapeError Command) :=
  collector.begin.feedAll bytes

end Collector

end AnsiCanvas
