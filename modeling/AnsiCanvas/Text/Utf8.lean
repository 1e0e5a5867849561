/-! # Reading UTF-8 that may be broken

Bytes are read as UTF-8.  Where they are not, one replacement character stands for
each maximal subpart: the longest run of bytes that begins a well-formed character,
or a single byte if it begins none.
-/

namespace AnsiCanvas.Text.Utf8

/-- A character whose first bytes have been read. -/
structure Partial where
  value : Nat
  /-- How many bytes are still to come; at least one. -/
  missing : Nat
  low : UInt8 := 0x80
  high : UInt8 := 0xBF
  deriving Repr

def replacement : Char := '\ufffd'

/-- What a byte is at the start of a character. -/
inductive Lead
  /-- It stands for a character on its own, or is replaced by one. -/
  | whole (character : Char)
  | opening (begun : Partial)

/-- Classifies a byte at the start of a character.  The bounds on the second byte
    keep out overlong forms, surrogates and values past the last code point. -/
def lead (byte : UInt8) : Lead :=
  let bits := byte.toNat
  if byte < 0x80 then .whole (Char.ofNat bits)
  else if byte < 0xC2 then .whole replacement
  else if byte < 0xE0 then .opening ⟨bits - 0xC0, 1, 0x80, 0xBF⟩
  else if byte = 0xE0 then .opening ⟨bits - 0xE0, 2, 0xA0, 0xBF⟩
  else if byte = 0xED then .opening ⟨bits - 0xE0, 2, 0x80, 0x9F⟩
  else if byte < 0xF0 then .opening ⟨bits - 0xE0, 2, 0x80, 0xBF⟩
  else if byte = 0xF0 then .opening ⟨bits - 0xF0, 3, 0x90, 0xBF⟩
  else if byte < 0xF4 then .opening ⟨bits - 0xF0, 3, 0x80, 0xBF⟩
  else if byte = 0xF4 then .opening ⟨bits - 0xF0, 3, 0x80, 0x8F⟩
  else .whole replacement

structure Reading where
  done : Array Char := #[]
  begun : Option Partial := none

namespace Reading

def startWith (reading : Reading) (byte : UInt8) : Reading :=
  match lead byte with
  | .whole character => ⟨reading.done.push character, none⟩
  | .opening begun => ⟨reading.done, some begun⟩

/-- Takes the next byte.  One that cannot continue the character that has been
    begun leaves a replacement for it and starts anew. -/
def next (reading : Reading) (byte : UInt8) : Reading :=
  match reading with
  | ⟨done, none⟩ => startWith ⟨done, none⟩ byte
  | ⟨done, some begun⟩ =>
    if begun.low ≤ byte ∧ byte ≤ begun.high then
      let value := begun.value * 64 + (byte.toNat - 0x80)
      if begun.missing ≤ 1 then ⟨done.push (Char.ofNat value), none⟩
      else ⟨done, some ⟨value, begun.missing - 1, 0x80, 0xBF⟩⟩
    else
      startWith ⟨done.push replacement, none⟩ byte

/-- The characters read, when no further byte comes. -/
def finish (reading : Reading) : Array Char :=
  match reading.begun with
  | none => reading.done
  | some _ => reading.done.push replacement

end Reading

def decode (bytes : List UInt8) : List Char :=
  (bytes.foldl Reading.next {}).finish.toList

def text (bytes : ByteArray) : String :=
  match String.fromUTF8? bytes with
  | some text => text
  | none => String.ofList (decode bytes.toList)

end AnsiCanvas.Text.Utf8
