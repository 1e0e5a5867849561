import AnsiCanvas.Outlet

/-! # Writing in pieces

Writing one text and then another is writing both at once, on every outlet: what is
received, the room that is left and the refusal are the same.  So a computation that
only writes is known by its text alone.
-/

namespace AnsiCanvas.Outlet

theorem bind_apply {α β : Type} (first : Writing α) (second : α → Writing β) (outlet : Outlet) :
    (first >>= second) outlet =
      match first outlet with
      | .ok value outlet => second value outlet
      | .error refusal outlet => .error refusal outlet := by
  change EStateM.bind first second outlet = _
  rw [EStateM.bind]
  split <;> simp [*]

theorem write_limited (text : String) (received : ByteArray) (room : Room) :
    write text ⟨received, some room⟩ =
      if text.utf8ByteSize ≤ room.bytes then
        .ok () ⟨received ++ text.toUTF8, some { room with bytes := room.bytes - text.utf8ByteSize }⟩
      else
        .error room.refusal
          ⟨received ++ text.toUTF8.extract 0 room.bytes, some { room with bytes := 0 }⟩ := rfl

@[simp] theorem write_empty : write "" = pure () := by
  funext ⟨received, room⟩
  cases room with
  | none =>
    change EStateM.Result.ok () (⟨received ++ "".toUTF8, none⟩ : Outlet) = .ok () ⟨received, none⟩
    rw [String.toUTF8_eq_toByteArray, String.toByteArray_empty, ByteArray.append_empty]
  | some room =>
    change _ = EStateM.Result.ok () (⟨received, some room⟩ : Outlet)
    rw [write_limited, String.utf8ByteSize_empty, if_pos (Nat.zero_le _),
      String.toUTF8_eq_toByteArray, String.toByteArray_empty, ByteArray.append_empty]
    rfl

theorem toUTF8_append (first second : String) :
    (first ++ second).toUTF8 = first.toUTF8 ++ second.toUTF8 := by
  simp only [String.toUTF8_eq_toByteArray, String.toByteArray_append]

theorem size_toUTF8 (text : String) : text.toUTF8.size = text.utf8ByteSize := by
  rw [String.toUTF8_eq_toByteArray, String.size_toByteArray]

/-- Writing two texts one after the other is writing them as one. -/
theorem write_append (first second : String) :
    write (first ++ second) = (do write first; write second) := by
  funext ⟨received, room⟩
  rw [bind_apply]
  cases room with
  | none =>
    change EStateM.Result.ok () (⟨received ++ (first ++ second).toUTF8, none⟩ : Outlet)
      = .ok () ⟨received ++ first.toUTF8 ++ second.toUTF8, none⟩
    rw [toUTF8_append, ByteArray.append_assoc]
  | some room =>
    rw [write_limited, write_limited, String.utf8ByteSize_append, toUTF8_append]
    by_cases firstFits : first.utf8ByteSize ≤ room.bytes
    · simp only [firstFits, ↓reduceIte, write_limited]
      by_cases bothFit : first.utf8ByteSize + second.utf8ByteSize ≤ room.bytes
      · have secondFits : second.utf8ByteSize ≤ room.bytes - first.utf8ByteSize := by omega
        simp only [bothFit, secondFits, ↓reduceIte, ByteArray.append_assoc, Nat.sub_sub]
      · have secondFails : ¬ second.utf8ByteSize ≤ room.bytes - first.utf8ByteSize := by omega
        -- All of the first text goes in, and of the second what the room left allows.
        have whole : first.toUTF8.extract 0 room.bytes = first.toUTF8 := by
          have bound : first.toUTF8.size ≤ room.bytes := by rwa [size_toUTF8]
          rw [← Nat.max_eq_left bound, ByteArray.extract_zero_max_size]
        simp only [bothFit, secondFails, ↓reduceIte, ByteArray.extract_append, whole, size_toUTF8,
          Nat.zero_sub, ByteArray.append_assoc]
    · have bothFail : ¬ first.utf8ByteSize + second.utf8ByteSize ≤ room.bytes := by omega
      have nothing : room.bytes - first.utf8ByteSize = 0 := by omega
      simp only [firstFits, bothFail, ↓reduceIte, ByteArray.extract_append, size_toUTF8, nothing,
        ByteArray.extract_same, ByteArray.append_empty, Nat.zero_sub]

theorem write_fresh (text : String) : write text {} = .ok () { received := text.toUTF8 } := by
  change EStateM.Result.ok () (⟨.empty ++ text.toUTF8, none⟩ : Outlet) = _
  rw [ByteArray.empty_append]

theorem fromUTF8?_toUTF8 (text : String) : String.fromUTF8? text.toUTF8 = some text := by
  unfold String.fromUTF8?
  rw [String.toUTF8_eq_toByteArray, dif_pos text.isValidUTF8]
  rfl

/-- What an outlet has received of a whole text is that text. -/
theorem text_received (text : String) :
    ({ received := text.toUTF8 } : Outlet).text = text := by
  rw [Outlet.text, Text.Utf8.text, fromUTF8?_toUTF8]

/-- What an outlet does not take it refuses for want of room. -/
theorem write_ok_or_refused (text : String) (outlet : Outlet) :
    (∃ after, write text outlet = .ok () after)
      ∨ ∃ room after, outlet.room = some room ∧ write text outlet = .error room.refusal after := by
  obtain ⟨received, _ | room⟩ := outlet
  · exact .inl ⟨_, rfl⟩
  · rw [write_limited]
    split
    · exact .inl ⟨_, rfl⟩
    · exact .inr ⟨room, _, rfl, rfl⟩

end AnsiCanvas.Outlet
