import AnsiCanvas.Proofs.Json.Token

/-! # Spelled objects

What a JSON text for an object of scalars may look like, and that the reader takes it for that
object.  The members may be any, in any order, with white space wherever it may stand.
-/

namespace AnsiCanvas.Json

/-! ## Spellings -/

inductive SpellsMember (key : String) (value : Value) : List Char → Prop
  | mk {beforeKey keyText afterKey beforeValue valueText afterValue : List Char} :
      IsSpace beforeKey → SpellsString key keyText → IsSpace afterKey →
      IsSpace beforeValue → SpellsScalar value valueText → IsSpace afterValue →
      SpellsMember key value
        (beforeKey ++ keyText ++ afterKey ++ ':' :: (beforeValue ++ valueText ++ afterValue))

/-- One member or more, with commas between them. -/
inductive SpellsMembers : List (String × Value) → List Char → Prop
  | one {key : String} {value : Value} {text : List Char} :
      SpellsMember key value text → SpellsMembers [(key, value)] text
  | cons {key : String} {value : Value} {text : List Char} {rest : List (String × Value)}
      {more : List Char} :
      SpellsMember key value text → SpellsMembers rest more →
      SpellsMembers ((key, value) :: rest) (text ++ ',' :: more)

/-- An object with these members in this order, between braces. -/
inductive SpellsObject : List (String × Value) → List Char → Prop
  | empty {before inside after : List Char} :
      IsSpace before → IsSpace inside → IsSpace after →
      SpellsObject [] (before ++ '\x7b' :: (inside ++ '\x7d' :: after))
  | members {before inside after : List Char} {members : List (String × Value)} :
      IsSpace before → SpellsMembers members inside → IsSpace after →
      SpellsObject members (before ++ '\x7b' :: (inside ++ '\x7d' :: after))

/-! ## Reading -/

open Tokenizer

/-- The members of an object as a value has them. -/
def keyed (members : List (String × Value)) : List (Key × Value) :=
  members.map fun member => (some member.1, member.2)

theorem foldlM_mark {c : Char} {token : Token} (mark : mark? c = some token)
    (noSpace : isSpace c = false) (tokens : Array Token) (rest : List Char) :
    (c :: rest).foldlM step? ⟨tokens, .between⟩
      = rest.foldlM step? ⟨tokens.push token, .between⟩ := by
  apply foldlM_cons_of_some
  simp only [step?, start?, noSpace, Bool.false_eq_true, ↓reduceIte, mark]

theorem exists_yields_member {key : String} {value : Value} {text : List Char}
    (spelled : SpellsMember key value text) :
    ∃ token, StandsFor token value ∧ Yields text [.text (some key), .colon, token] := by
  obtain ⟨beforeKey, name, afterKey, beforeValue, scalar, afterValue⟩ := spelled
  obtain ⟨token, stands, yields⟩ := exists_yields_scalar scalar
  refine ⟨token, stands, fun tokens rest ends => ?_⟩
  simp only [List.append_assoc, List.cons_append]
  rw [foldlM_space beforeKey, foldlM_string name, foldlM_space afterKey, foldlM_mark rfl rfl,
    foldlM_space beforeValue, yields _ _ (ends.space_append afterValue), foldlM_space afterValue]
  rfl

theorem Reader.foldlM_member {token : Token} {value : Value} (stands : StandsFor token value)
    (key : Key) (read : List (Key × Value)) :
    [.text key, .colon, token].foldlM Reader.step? ⟨[], .key read⟩
      = some ⟨[], .nextMember ((key, value) :: read)⟩ := by
  simp [Reader.step?, stands _, Reader.accept]

/-- Members are read one after the other.  The first key is read like any other, whether it comes
    after a brace or after a comma. -/
theorem exists_yields_members {members : List (String × Value)} {text : List Char}
    (spelled : SpellsMembers members text) :
    ∃ own : List Token, Yields text own
      ∧ own.foldlM Reader.step? ⟨[], .firstKey⟩ = own.foldlM Reader.step? ⟨[], .key []⟩
      ∧ ∀ read, own.foldlM Reader.step? ⟨[], .key read⟩
          = some ⟨[], .nextMember ((keyed members).reverse ++ read)⟩ := by
  induction spelled with
  | one spelled =>
    obtain ⟨token, stands, yields⟩ := exists_yields_member spelled
    exact ⟨_, yields, rfl, Reader.foldlM_member stands _⟩
  | @cons key value text rest more spelled _ ih =>
    obtain ⟨token, stands, yields⟩ := exists_yields_member spelled
    obtain ⟨own, yieldsRest, -, readRest⟩ := ih
    refine ⟨[.text (some key), .colon, token] ++ .comma :: own, fun tokens rest ends => ?_, rfl,
      fun read => ?_⟩
    · have comma : Ends (',' :: (more ++ rest)) := ⟨',', _, rfl, .inr rfl⟩
      rw [List.append_assoc, List.cons_append, yields tokens _ comma, foldlM_mark rfl rfl,
        yieldsRest _ _ ends]
      simp
    · have comma (read : List (Key × Value)) :
          Reader.step? ⟨[], .nextMember read⟩ .comma = some ⟨[], .key read⟩ := rfl
      rw [foldlM_append_of_some (Reader.foldlM_member stands _ _), foldlM_cons_of_some (comma _),
        readRest]
      simp [keyed]

theorem tokens?_of_braces {before inside after : List Char} {own : List Token}
    (beforeSpace : IsSpace before) (yields : Yields inside own) (afterSpace : IsSpace after) :
    tokens? (before ++ '\x7b' :: (inside ++ '\x7d' :: after))
      = some (.openBrace :: (own ++ [.closeBrace])) := by
  have closes : Ends ('\x7d' :: after) := ⟨'\x7d', after, rfl, .inr rfl⟩
  rw [tokens?, foldlM_space beforeSpace, foldlM_mark rfl rfl, yields _ _ closes,
    foldlM_mark rfl rfl, ← List.append_nil after, foldlM_space afterSpace]
  simp [finish?]

/-- What settings files rely on: every spelling of an object of scalars is read as that object. -/
def ReadsObjects (read : String → Option Value) : Prop :=
  ∀ {members : List (String × Value)} {text : String},
    SpellsObject members text.toList → read text = some (.object (keyed members))

theorem Value.readsObjects_ofText? : ReadsObjects ofText? := by
  intro members text spelled
  rw [ofText?]
  generalize text.toList = characters at spelled
  cases spelled with
  | empty beforeSpace insideSpace afterSpace =>
    have nothing : Yields _ [] := fun tokens rest _ => by
      simpa using foldlM_space insideSpace tokens rest
    rw [tokens?_of_braces beforeSpace nothing afterSpace]
    rfl
  | members beforeSpace spelled afterSpace =>
    obtain ⟨own, yields, first, read⟩ := exists_yields_members spelled
    have opened : Reader.step? {} .openBrace = some ⟨[], .firstKey⟩ := rfl
    have closed : Reader.step? ⟨[], .nextMember (keyed members).reverse⟩ .closeBrace
        = some ⟨[], .done (.object (keyed members))⟩ := by
      simp [Reader.step?, Reader.accept]
    have inside : own.foldlM Reader.step? ⟨[], .firstKey⟩
        = some ⟨[], .nextMember (keyed members).reverse⟩ := by
      rw [first, read, List.append_nil]
    have whole : (.openBrace :: (own ++ [.closeBrace])).foldlM Reader.step? {}
        = some ⟨[], .done (.object (keyed members))⟩ := by
      rw [foldlM_cons_of_some opened, foldlM_append_of_some inside]
      exact foldlM_cons_of_some closed []
    rw [tokens?_of_braces beforeSpace yields afterSpace, Option.bind_eq_bind, Option.bind_some,
      whole]
    rfl

end AnsiCanvas.Json
