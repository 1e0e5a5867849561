import AnsiCanvas.Pen.Escape

/-! # Following the codes of changes

Every change is spelled by one to five codes, and whatever codes come after them, the
first change read back is the one that was spelled.  So following the codes of a list of
changes makes the changes one after another and never fails.  The one thing the codes
lose is the index of a classic color past the sixteenth.
-/

namespace AnsiCanvas

/-- A color as its codes are understood: there are sixteen classic colors, and a greater
    index counts among the bright ones. -/
def Color.standard : Color → Color
  | classic index => if index < 16 then classic index else classic (8 + index % 8)
  | color => color

namespace Change

/-- A change as its codes are understood. -/
def standard : Change → Change
  | color layer selected => color layer selected.standard
  | change => change

/-! ## Reading one change -/

theorem style_ofCode?_of_le {code : Nat} (high : 30 ≤ code) : Style.ofCode? code = none := by
  unfold Style.ofCode?
  split <;> first | omega | rfl

theorem clearing_ofCode?_of_le {code : Nat} (high : 30 ≤ code) : Clearing.ofCode? code = none := by
  unfold Clearing.ofCode?
  split <;> first | omega | rfl

theorem read_of_foreground {code : Nat} (high : 30 ≤ code) {rest : List Nat}
    {answer : Except RenditionError (Change × Nat)}
    (found : readColor .foreground code rest = some answer) : read code rest = answer := by
  have notZero : code ≠ 0 := by omega
  simp only [read, notZero, ↓reduceIte, style_ofCode?_of_le high, clearing_ofCode?_of_le high, found]

theorem read_of_background {code : Nat} (high : 30 ≤ code) {rest : List Nat}
    {answer : Except RenditionError (Change × Nat)}
    (missed : readColor .foreground code rest = none)
    (found : readColor .background code rest = some answer) : read code rest = answer := by
  have notZero : code ≠ 0 := by omega
  simp only [read, notZero, ↓reduceIte, style_ofCode?_of_le high, clearing_ofCode?_of_le high,
    missed, found]

theorem ofCode?_classic (layer : Layer) (index : UInt8) :
    ∃ code, Color.codes layer (.classic index) = [code]
      ∧ (layer.normalCode ≤ code ∧ code ≤ layer.normalCode + 7
        ∨ layer.brightCode ≤ code ∧ code ≤ layer.brightCode + 7)
      ∧ Color.ofCode? layer code = some (Color.standard (.classic index)) := by
  have range := index.toNat_lt
  -- The eight normal colors have codes of their own, all others share those of the bright.
  by_cases normal : index < 8
  · have small : index.toNat < 8 := UInt8.lt_iff_toNat_lt.mp normal
    have low : index < 16 := UInt8.lt_iff_toNat_lt.mpr (Nat.lt_trans small (by decide))
    refine ⟨layer.normalCode + index.toNat, by simp [Color.codes, normal], by omega, ?_⟩
    have inside : layer.normalCode ≤ layer.normalCode + index.toNat
        ∧ layer.normalCode + index.toNat ≤ layer.normalCode + 7 := by omega
    rw [Color.ofCode?, if_pos inside, Nat.add_sub_cancel_left, UInt8.ofNat_toNat, Color.standard,
      if_pos low]
  · have big : 8 ≤ index.toNat := UInt8.le_iff_toNat_le.mp (UInt8.not_lt.mp normal)
    have modulo : index.toNat % 8 < 8 := Nat.mod_lt _ (by decide)
    refine ⟨layer.brightCode + index.toNat % 8, by simp [Color.codes, normal], by omega, ?_⟩
    have outside : ¬ (layer.normalCode ≤ layer.brightCode + index.toNat % 8
        ∧ layer.brightCode + index.toNat % 8 ≤ layer.normalCode + 7) := by
      cases layer <;> simp only [Layer.normalCode, Layer.brightCode] <;> omega
    have inside : layer.brightCode ≤ layer.brightCode + index.toNat % 8
        ∧ layer.brightCode + index.toNat % 8 ≤ layer.brightCode + 7 := by omega
    have bright : UInt8.ofNat (index.toNat % 8 + 8) = 8 + index % 8 := by
      apply UInt8.toNat_inj.mp
      rw [UInt8.toNat_ofNat', UInt8.toNat_add, UInt8.toNat_mod, Nat.add_comm]
      rfl
    rw [Color.ofCode?, if_neg outside, if_pos inside, Nat.add_sub_cancel_left, bright,
      Color.standard]
    by_cases low : index < 16
    · have same : 8 + index % 8 = index := by
        have below : index.toNat < 16 := UInt8.lt_iff_toNat_lt.mp low
        apply UInt8.toNat_inj.mp
        rw [UInt8.toNat_add, UInt8.toNat_mod]
        change (8 + index.toNat % 8) % 256 = index.toNat
        omega
      rw [if_pos low, same]
    · rw [if_neg low]

/-- A color is announced by a code of its own layer, and with the codes after it gives
    the color back. -/
theorem readColor_codes (layer : Layer) (selected : Color) :
    ∃ code tail, selected.codes layer = code :: tail
      ∧ layer.normalCode ≤ code
      ∧ (layer = .background → ∀ rest, readColor .foreground code rest = none)
      ∧ ∀ rest, readColor layer code (tail ++ rest)
          = some (.ok (color layer selected.standard, tail.length)) := by
  cases selected with
  | unset =>
    refine ⟨layer.unsetCode, [], rfl, ?_, ?_, ?_⟩
    · cases layer <;> decide
    · rintro rfl rest
      rfl
    · intro rest
      simp [readColor, Color.standard]
  | classic index =>
    obtain ⟨code, codes, range, found⟩ := ofCode?_classic layer index
    have plain : code ≠ layer.unsetCode ∧ code ≠ layer.extendedCode := by
      cases layer <;>
        simp only [Layer.unsetCode, Layer.extendedCode, Layer.normalCode, Layer.brightCode]
          at range ⊢ <;>
        omega
    refine ⟨code, [], codes, ?_, ?_, ?_⟩
    · cases layer <;> simp only [Layer.normalCode, Layer.brightCode] at range ⊢ <;> omega
    · rintro rfl rest
      -- The codes of the background are ten above those of the foreground, and these span
      -- no more than ten.
      simp only [Layer.normalCode, Layer.brightCode] at range
      have notNormal : ¬ (Layer.foreground.normalCode ≤ code
          ∧ code ≤ Layer.foreground.normalCode + 7) := by
        simp only [Layer.normalCode]
        omega
      have notBright : ¬ (Layer.foreground.brightCode ≤ code
          ∧ code ≤ Layer.foreground.brightCode + 7) := by
        simp only [Layer.brightCode]
        omega
      have notOther : code ≠ Layer.foreground.unsetCode ∧ code ≠ Layer.foreground.extendedCode := by
        simp only [Layer.unsetCode, Layer.extendedCode, Layer.normalCode]
        omega
      rw [readColor, if_neg notOther.1, if_neg notOther.2, Color.ofCode?, if_neg notNormal,
        if_neg notBright]
      rfl
    · intro rest
      simp [readColor, plain, found]
  | palette index =>
    refine ⟨layer.extendedCode, [5, index.toNat], rfl, ?_, ?_, ?_⟩
    · cases layer <;> decide
    · rintro rfl rest
      rfl
    · intro rest
      have range := index.toNat_lt
      cases layer <;>
        simp [readColor, readExtended, Layer.extendedCode, Layer.unsetCode, Color.standard, range]
  | rgb red green blue =>
    refine ⟨layer.extendedCode, [2, red.toNat, green.toNat, blue.toNat], rfl, ?_, ?_, ?_⟩
    · cases layer <;> decide
    · rintro rfl rest
      rfl
    · intro rest
      have redRange := red.toNat_lt
      have greenRange := green.toNat_lt
      have blueRange := blue.toNat_lt
      cases layer <;>
        simp [readColor, readExtended, Layer.extendedCode, Layer.unsetCode, Color.standard,
          redRange, greenRange, blueRange]

/-- The first change read from the codes of a change is that change, whatever follows. -/
theorem read_codes (change : Change) :
    ∃ code tail, change.codes = code :: tail
      ∧ ∀ rest, read code (tail ++ rest) = .ok (change.standard, tail.length) := by
  cases change with
  | reset => exact ⟨0, [], rfl, fun rest => rfl⟩
  | set style => exact ⟨style.code, [], rfl, fun rest => by cases style <;> rfl⟩
  | clear clearing => exact ⟨clearing.code, [], rfl, fun rest => by cases clearing <;> rfl⟩
  | color layer selected =>
    obtain ⟨code, tail, codes, low, missed, found⟩ := readColor_codes layer selected
    have high : 30 ≤ code := Nat.le_trans (by cases layer <;> decide) low
    refine ⟨code, tail, codes, fun rest => ?_⟩
    cases layer with
    | foreground => exact read_of_foreground high (found rest)
    | background => exact read_of_background high (missed rfl _) (found rest)

theorem codes_ne_nil (change : Change) : change.codes ≠ [] := by
  obtain ⟨code, tail, codes, _⟩ := read_codes change
  simp [codes]

theorem lt_of_mem_codes {change : Change} {code : Nat} (member : code ∈ change.codes) :
    code < 256 := by
  cases change with
  | reset => simp_all [codes]
  | set style =>
    obtain rfl : code = style.code := by simpa [codes] using member
    cases style <;> decide
  | clear clearing =>
    obtain rfl : code = clearing.code := by simpa [codes] using member
    cases clearing <;> decide
  | color layer selected =>
    have extended : layer.extendedCode < 256 := by cases layer <;> decide
    cases selected with
    | unset =>
      obtain rfl : code = layer.unsetCode := by simpa [codes, Color.codes] using member
      cases layer <;> decide
    | classic index =>
      obtain ⟨selecting, equal, range, _⟩ := ofCode?_classic layer index
      obtain rfl : code = selecting := by simpa [codes, equal] using member
      cases layer <;> simp only [Layer.normalCode, Layer.brightCode] at range <;> omega
    | palette index =>
      have range := index.toNat_lt
      simp only [codes, Color.codes, List.mem_cons, List.not_mem_nil, or_false] at member
      omega
    | rgb red green blue =>
      have redRange := red.toNat_lt
      have greenRange := green.toNat_lt
      have blueRange := blue.toNat_lt
      simp only [codes, Color.codes, List.mem_cons, List.not_mem_nil, or_false] at member
      omega

end Change

/-! ## Following a list of changes -/

namespace Pen

theorem merge_codes_append (pen : Pen) (change : Change) (rest : List Nat) :
    pen.merge (change.codes ++ rest) = (pen.apply change.standard).merge rest := by
  obtain ⟨code, tail, codes, read⟩ := change.read_codes
  rw [codes, List.cons_append, merge, read rest]
  simp only [List.drop_left]

/-- The changes made one after another, as their codes are understood. -/
def follow (pen : Pen) (changes : List Change) : Pen :=
  changes.foldl (fun pen change => pen.apply change.standard) pen

@[simp] theorem follow_nil (pen : Pen) : pen.follow [] = pen := rfl

theorem follow_append (pen : Pen) (first second : List Change) :
    pen.follow (first ++ second) = (pen.follow first).follow second := List.foldl_append

/-- Following the codes of changes makes the changes, and nothing goes wrong. -/
theorem merge_flatMap_codes (pen : Pen) (changes : List Change) :
    pen.merge (changes.flatMap Change.codes) = (pen.follow changes, none) := by
  induction changes generalizing pen with
  | nil => simp [merge]
  | cons change changes ih =>
    rw [List.flatMap_cons, merge_codes_append, ih]
    rfl

end Pen

end AnsiCanvas
