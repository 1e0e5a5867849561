import AnsiCanvas.Proofs.Pen.Merge

/-! # Codes that cannot be followed

A list of codes acts on a pen from left to right, and what it does is known piece by piece: a change
is read from the codes that spell it and from nothing after them.  So a list that is followed to its
end may be cut off there, and a list that fails has a first code that no change begins with, before
which everything was done.

Which codes are followed is a matter of the codes alone.  The pen is never looked at.
-/

namespace AnsiCanvas

/-! ## Codes that mean something -/

theorem Style.ofCode?_eq_none_iff {code : Nat} :
    ofCode? code = none ↔ code = 0 ∨ 9 < code := by
  unfold ofCode?
  split <;> grind

theorem Clearing.ofCode?_eq_none_iff {code : Nat} :
    ofCode? code = none ↔ code < 21 ∨ 29 < code := by
  unfold ofCode?
  split <;> grind

theorem Color.ofCode?_eq_none_iff {layer : Layer} {code : Nat} :
    ofCode? layer code = none
      ↔ (code < layer.normalCode ∨ layer.normalCode + 7 < code)
        ∧ (code < layer.brightCode ∨ layer.brightCode + 7 < code) := by
  unfold ofCode?
  split
  · simp only [reduceCtorEq, false_iff]
    omega
  · split
    · simp only [reduceCtorEq, false_iff]
      omega
    · simp only [true_iff]
      omega

namespace Change

/-- Codes that begin a change: a reset, the styles and their clearings, and the colors of both
    layers, of which 38 and 48 ask for more codes. -/
def IsKnown (code : Nat) : Prop :=
  code ≤ 9 ∨ (21 ≤ code ∧ code ≤ 49) ∨ (90 ≤ code ∧ code ≤ 97) ∨ (100 ≤ code ∧ code ≤ 107)

/-- Codes that begin with a palette entry or with three components of a color. -/
inductive SpellsColor : List Nat → Prop
  | palette {index : Nat} {more : List Nat} : index ≤ 255 → SpellsColor (5 :: index :: more)
  | components {red green blue : Nat} {more : List Nat} :
      red ≤ 255 → green ≤ 255 → blue ≤ 255 → SpellsColor (2 :: red :: green :: blue :: more)

/-- Why no change begins with `code` when `rest` comes after it. -/
inductive Unreadable (code : Nat) (rest : List Nat) : RenditionError → Prop
  | unknown : ¬ IsKnown code → Unreadable code rest (.unknownCode code)
  | color : code = 38 ∨ code = 48 → ¬ SpellsColor rest → Unreadable code rest (.extendedColor code)

theorem readExtended_eq_none_iff {rest : List Nat} :
    readExtended rest = none ↔ ¬ SpellsColor rest := by
  unfold readExtended
  split
  · next index more =>
    split
    · next small => simpa using .palette (Nat.le_of_lt_succ small)
    · next large =>
      simp only [true_iff]
      rintro ⟨small⟩
      omega
  · next red green blue more =>
    split
    · next small =>
      simpa using .components (Nat.le_of_lt_succ small.1) (Nat.le_of_lt_succ small.2.1)
        (Nat.le_of_lt_succ small.2.2)
    · next large =>
      simp only [true_iff]
      rintro (_ | ⟨_, _, _⟩)
      omega
  · next noPalette noComponents =>
    simp only [true_iff]
    rintro (_ | _)
    · exact noPalette _ _ rfl
    · exact noComponents _ _ _ _ rfl

theorem readColor_eq_none_iff {layer : Layer} {code : Nat} {rest : List Nat} :
    readColor layer code rest = none
      ↔ (code < layer.normalCode ∨ layer.normalCode + 9 < code)
        ∧ (code < layer.brightCode ∨ layer.brightCode + 7 < code) := by
  rw [readColor]
  split
  · next unset =>
    rw [Layer.unsetCode] at unset
    simp only [reduceCtorEq, false_iff]
    omega
  · next set =>
    rw [Layer.unsetCode] at set
    split
    · next extended =>
      rw [Layer.extendedCode] at extended
      split <;> simp only [reduceCtorEq, false_iff] <;> omega
    · next plain =>
      rw [Layer.extendedCode] at plain
      rw [Option.map_eq_none_iff, Color.ofCode?_eq_none_iff]
      omega

theorem readColor_eq_error_iff {layer : Layer} {code : Nat} {rest : List Nat}
    {error : RenditionError} :
    readColor layer code rest = some (.error error)
      ↔ code = layer.extendedCode ∧ ¬ SpellsColor rest ∧ error = .extendedColor code := by
  have apart : layer.unsetCode ≠ layer.extendedCode := by cases layer <;> decide
  rw [readColor, ← readExtended_eq_none_iff]
  split
  · next unset => simp [unset, apart]
  · split
    · next extended =>
      cases spelled : readExtended rest with
      | none => simp [extended, eq_comm]
      | some color => simp
    · next plain => simp [plain]

/-- The codes of colors come after those of styles. -/
theorem le_of_readColor {layer : Layer} {code : Nat} {rest : List Nat}
    {answer : Except RenditionError (Change × Nat)}
    (found : readColor layer code rest = some answer) : 30 ≤ code := by
  apply Nat.le_of_not_lt
  intro low
  have missed : readColor layer code rest = none := by
    rw [readColor_eq_none_iff]
    cases layer <;> simp only [Layer.normalCode, Layer.brightCode] <;> omega
  rw [missed] at found
  cases found

/-- The five kinds of codes are all that are known. -/
theorem not_isKnown_iff {code : Nat} (rest : List Nat) :
    ¬ IsKnown code
      ↔ code ≠ 0 ∧ Style.ofCode? code = none ∧ Clearing.ofCode? code = none
        ∧ readColor .foreground code rest = none ∧ readColor .background code rest = none := by
  rw [Style.ofCode?_eq_none_iff, Clearing.ofCode?_eq_none_iff, readColor_eq_none_iff,
    readColor_eq_none_iff]
  simp only [IsKnown, Layer.normalCode, Layer.brightCode]
  omega

theorem read_eq_error_iff {code : Nat} {rest : List Nat} {error : RenditionError} :
    read code rest = .error error ↔ Unreadable code rest error := by
  constructor
  · intro failed
    rw [read] at failed
    -- One case for each kind of code, in the order in which they are tried.
    repeat' split at failed
    · cases failed
    · cases failed
    · cases failed
    · next found =>
      obtain ⟨extended, unspelled, rfl⟩ := readColor_eq_error_iff.mp (failed ▸ found)
      exact .color (.inl extended) unspelled
    · next found =>
      obtain ⟨extended, unspelled, rfl⟩ := readColor_eq_error_iff.mp (failed ▸ found)
      exact .color (.inr extended) unspelled
    · next notReset _ noStyle _ noClearing _ noForeground _ noBackground =>
      cases failed
      exact .unknown ((not_isKnown_iff rest).mpr ⟨notReset,
        Option.eq_none_iff_forall_ne_some.mpr noStyle,
        Option.eq_none_iff_forall_ne_some.mpr noClearing,
        Option.eq_none_iff_forall_ne_some.mpr noForeground,
        Option.eq_none_iff_forall_ne_some.mpr noBackground⟩)
  · rintro (unknown | ⟨extended, unspelled⟩)
    · obtain ⟨notReset, noStyle, noClearing, noForeground, noBackground⟩ :=
        (not_isKnown_iff rest).mp unknown
      simp only [read, notReset, ↓reduceIte, noStyle, noClearing, noForeground, noBackground]
    · rcases extended with rfl | rfl
      · exact read_of_foreground (by decide)
          (readColor_eq_error_iff.mpr ⟨rfl, unspelled, rfl⟩)
      · exact read_of_background (by decide) rfl
          (readColor_eq_error_iff.mpr ⟨rfl, unspelled, rfl⟩)

/-! ## Codes that are taken -/

theorem readExtended_own {rest : List Nat} {selected : Color} {taken : Nat}
    (spelled : readExtended rest = some (selected, taken)) :
    ∃ own more, rest = own ++ more ∧ own.length = taken
      ∧ ∀ other, readExtended (own ++ other) = some (selected, taken) := by
  unfold readExtended at spelled
  split at spelled
  · next index more =>
    split at spelled
    · next small =>
      cases spelled
      exact ⟨[5, index], more, rfl, rfl, fun other => by simp [readExtended, small]⟩
    · cases spelled
  · next red green blue more =>
    split at spelled
    · next small =>
      cases spelled
      exact ⟨[2, red, green, blue], more, rfl, rfl, fun other => by simp [readExtended, small]⟩
    · cases spelled
  · cases spelled

theorem readColor_own {layer : Layer} {code : Nat} {rest : List Nat} {change : Change} {taken : Nat}
    (answered : readColor layer code rest = some (.ok (change, taken))) :
    ∃ own more, rest = own ++ more ∧ own.length = taken
      ∧ ∀ other, readColor layer code (own ++ other) = some (.ok (change, taken)) := by
  simp only [readColor] at answered ⊢
  split at answered
  · next unset =>
    cases answered
    exact ⟨[], rest, rfl, rfl, fun other => if_pos unset⟩
  · next set =>
    simp only [if_neg set]
    split at answered
    · next extended =>
      simp only [if_pos extended]
      cases spelled : readExtended rest with
      | none =>
        rw [spelled] at answered
        cases answered
      | some color =>
        rw [spelled] at answered
        cases answered
        obtain ⟨own, more, split, length, same⟩ := readExtended_own spelled
        exact ⟨own, more, split, length, fun other => by rw [same]⟩
    · next plain =>
      simp only [if_neg plain]
      obtain ⟨selected, named, found⟩ := Option.map_eq_some_iff.mp answered
      cases found
      exact ⟨[], rest, rfl, rfl, fun other => by rw [named]; rfl⟩

/-- A change is read from the codes that it takes, whatever comes after them. -/
theorem read_own {code : Nat} {rest : List Nat} {change : Change} {taken : Nat}
    (answered : read code rest = .ok (change, taken)) :
    ∃ own more, rest = own ++ more ∧ own.length = taken
      ∧ ∀ other, read code (own ++ other) = .ok (change, taken) := by
  rw [read] at answered
  -- Only the codes of colors can take any that come after them.
  repeat' split at answered
  · next reset =>
    cases answered
    exact ⟨[], rest, rfl, rfl, fun other => if_pos reset⟩
  · next notReset _ style named =>
    cases answered
    exact ⟨[], rest, rfl, rfl, fun other => by simp only [read, notReset, ↓reduceIte, named]⟩
  · next notReset _ noStyle _ clearing named =>
    cases answered
    have style := Option.eq_none_iff_forall_ne_some.mpr noStyle
    exact ⟨[], rest, rfl, rfl, fun other => by
      simp only [read, notReset, ↓reduceIte, style, named]⟩
  · next answer found =>
    obtain ⟨own, more, split, length, same⟩ := readColor_own (answered ▸ found)
    exact ⟨own, more, split, length, fun other =>
      read_of_foreground (le_of_readColor found) (same other)⟩
  · next noForeground _ answer found =>
    obtain ⟨own, more, split, length, same⟩ := readColor_own (answered ▸ found)
    refine ⟨own, more, split, length, fun other => ?_⟩
    -- That the code is none of the foreground does not hang on what comes after it.
    have missed : readColor .foreground code (own ++ other) = none :=
      readColor_eq_none_iff.mpr (readColor_eq_none_iff.mp
        (Option.eq_none_iff_forall_ne_some.mpr noForeground))
    exact read_of_background (le_of_readColor found) missed (same other)
  · cases answered

end Change

namespace Pen

/-- Codes that are followed to their end may be cut off there. -/
theorem merge_append {pen after : Pen} {first : List Nat}
    (followed : pen.merge first = (after, none)) (second : List Nat) :
    pen.merge (first ++ second) = after.merge second := by
  induction pen, first using Pen.merge.induct with
  | case1 pen =>
    rw [merge] at followed
    cases followed
    rfl
  | case2 pen code rest change taken answered ih =>
    rw [merge, answered] at followed
    obtain ⟨own, more, rfl, rfl, same⟩ := Change.read_own answered
    dsimp only at followed
    rw [List.drop_left] at followed ih
    rw [List.cons_append, merge, List.append_assoc, same]
    dsimp only
    rw [List.drop_left]
    exact ih followed
  | case3 pen code rest error answered =>
    rw [merge, answered] at followed
    cases followed

theorem exists_of_merge_fails {pen after : Pen} {codes : List Nat} {error : RenditionError}
    (fails : pen.merge codes = (after, some error)) :
    ∃ before code rest, codes = before ++ code :: rest ∧ pen.merge before = (after, none)
      ∧ Change.Unreadable code rest error := by
  induction pen, codes using Pen.merge.induct with
  | case1 pen =>
    rw [merge] at fails
    cases fails
  | case2 pen code rest change taken answered ih =>
    rw [merge, answered] at fails
    obtain ⟨own, more, rfl, rfl, same⟩ := Change.read_own answered
    dsimp only at fails
    rw [List.drop_left] at fails ih
    obtain ⟨before, failing, rest, rfl, followed, unreadable⟩ := ih fails
    refine ⟨code :: (own ++ before), failing, rest, by simp, ?_, unreadable⟩
    rw [merge, same]
    dsimp only
    rw [List.drop_left, followed]
  | case3 pen code rest error answered =>
    rw [merge, answered] at fails
    cases fails
    exact ⟨[], code, rest, rfl, by rw [merge], Change.read_eq_error_iff.mp answered⟩

theorem merge_of_unreadable {code : Nat} {rest : List Nat} {error : RenditionError}
    (unreadable : Change.Unreadable code rest error) (pen : Pen) :
    pen.merge (code :: rest) = (pen, some error) := by
  rw [merge, Change.read_eq_error_iff.mpr unreadable]

theorem snd_merge (pen other : Pen) (codes : List Nat) :
    (pen.merge codes).2 = (other.merge codes).2 := by
  induction pen, codes using Pen.merge.induct generalizing other with
  | case1 pen => rw [merge, merge]
  | case2 pen code rest change taken answered ih =>
    rw [merge, merge, answered]
    exact ih _
  | case3 pen code rest error answered => rw [merge, merge, answered]

/-- Codes act on a pen from left to right.  A list that is followed to its end may be cut off
    there, and what is left acts on the pen that it has made.  A list fails exactly if it has a code
    that no change begins with after codes that are followed, and then the pen is the one that those
    have made.  Whether and how a list fails is the same for every pen. -/
theorem merge_acts_from_left (pen : Pen) :
    (∀ first after, pen.merge first = (after, none) →
        ∀ second, pen.merge (first ++ second) = after.merge second)
      ∧ (∀ codes after error, pen.merge codes = (after, some error) ↔
          ∃ before code rest, codes = before ++ code :: rest ∧ pen.merge before = (after, none)
            ∧ Change.Unreadable code rest error)
      ∧ ∀ (other : Pen) (codes : List Nat), (pen.merge codes).2 = (other.merge codes).2 := by
  refine ⟨fun first after followed second => merge_append followed second,
    fun codes after error => ⟨exists_of_merge_fails, ?_⟩,
    fun other codes => snd_merge pen other codes⟩
  rintro ⟨before, code, rest, rfl, followed, unreadable⟩
  rw [merge_append followed, merge_of_unreadable unreadable]

/-- Bold stays when a color is cut short after it. -/
theorem merge_acts_up_to_short_color :
    plain.merge [1, 38, 2, 10, 20] = ({ styles := ⟨1⟩ }, some (.extendedColor 38))
      ∧ plain.merge ([1] ++ [31, 300]) = ({ styles := ⟨1⟩ } : Pen).merge [31, 300] := by
  have bold : plain.merge [1] = ({ styles := ⟨1⟩ }, none) := by
    rw [merge, show Change.read 1 [] = .ok (.set .bold, 0) from rfl]
    dsimp only
    rw [List.drop_nil, merge]
    decide
  obtain ⟨appended, failing, -⟩ := merge_acts_from_left plain
  refine ⟨(failing _ _ _).mpr ⟨[1], 38, [2, 10, 20], rfl, bold, .color (.inl rfl) ?_⟩,
    appended _ _ bold _⟩
  rintro ⟨⟩

end Pen

end AnsiCanvas
