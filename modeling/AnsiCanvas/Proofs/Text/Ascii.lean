import AnsiCanvas.Text.Utf8

/-! # ASCII text in UTF-8

A text of ASCII characters alone has one byte for each of them, and these bytes are
read back as the text.
-/

namespace AnsiCanvas.Text.Utf8

/-- The bytes of a text. -/
def encode (text : List Char) : List UInt8 := text.flatMap String.utf8EncodeChar

@[simp] theorem encode_nil : encode [] = [] := rfl

@[simp] theorem encode_append (first second : List Char) :
    encode (first ++ second) = encode first ++ encode second := List.flatMap_append

theorem encode_cons (character : Char) (text : List Char) :
    encode (character :: text) = String.utf8EncodeChar character ++ encode text := rfl

theorem encode_toList (text : String) : encode text.toList = text.toUTF8.data.toList := by
  have bytes := String.utf8Encode_toList (b := text)
  rw [List.utf8Encode] at bytes
  rw [String.toUTF8, ← bytes, List.data_toByteArray, encode]

def IsAscii (text : List Char) : Prop := ∀ character ∈ text, character.toNat < 128

theorem utf8EncodeChar_of_lt {character : Char} (ascii : character.toNat < 128) :
    String.utf8EncodeChar character = [UInt8.ofNat character.toNat] := by
  have size : character.utf8Size = 1 := by
    rw [Char.utf8Size_eq_one_iff, UInt32.le_iff_toNat_le]
    exact Nat.le_of_lt_succ ascii
  rw [String.utf8EncodeChar_eq_singleton size]
  rfl

theorem encode_of_isAscii {text : List Char} (ascii : IsAscii text) :
    encode text = text.map fun character => UInt8.ofNat character.toNat := by
  induction text with
  | nil => rfl
  | cons character text ih =>
    have first := utf8EncodeChar_of_lt (ascii character List.mem_cons_self)
    rw [encode_cons, first, ih fun other member => ascii other (List.mem_cons_of_mem _ member)]
    rfl

theorem IsAscii.append {first second : List Char} (left : IsAscii first) (right : IsAscii second) :
    IsAscii (first ++ second) := by
  intro character member
  rcases List.mem_append.mp member with member | member
  · exact left character member
  · exact right character member

theorem lead_of_lt {character : Char} (ascii : character.toNat < 128) :
    lead (UInt8.ofNat character.toNat) = .whole character := by
  have value : (UInt8.ofNat character.toNat).toNat = character.toNat := by
    rw [UInt8.toNat_ofNat']
    omega
  have low : UInt8.ofNat character.toNat < 0x80 := by
    rw [UInt8.lt_iff_toNat_lt, value]
    exact ascii
  rw [lead, if_pos low, value, Char.ofNat_toNat]

theorem foldl_next_of_isAscii {text : List Char} (ascii : IsAscii text) (done : Array Char) :
    (encode text).foldl Reading.next ⟨done, none⟩ = ⟨done ++ text.toArray, none⟩ := by
  induction text generalizing done with
  | nil => simp
  | cons character text ih =>
    have first := ascii character List.mem_cons_self
    have rest : IsAscii text := fun other member => ascii other (List.mem_cons_of_mem _ member)
    have start : Reading.next ⟨done, none⟩ (UInt8.ofNat character.toNat)
        = ⟨done.push character, none⟩ := by
      simp only [Reading.next, Reading.startWith, lead_of_lt first]
    rw [encode_cons, utf8EncodeChar_of_lt first, List.singleton_append, List.foldl_cons, start,
      ih rest]
    simp

/-- Reading the bytes of an ASCII text gives the text. -/
theorem decode_encode {text : List Char} (ascii : IsAscii text) : decode (encode text) = text := by
  have read := foldl_next_of_isAscii ascii #[]
  rw [decode, read]
  simp [Reading.finish]

end AnsiCanvas.Text.Utf8
