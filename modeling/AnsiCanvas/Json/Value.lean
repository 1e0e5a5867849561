import AnsiCanvas.Json.Token

/-! # JSON values

A value is read from its tokens with a stack of the arrays and objects that are still
open, so that nesting may be of any depth.  The members of an object keep their order,
and a key may occur more than once.
-/

namespace AnsiCanvas.Json

/-- A JSON value.  Numbers keep their spelling. -/
inductive Value
  | null
  | bool (value : Bool)
  | number (literal : String)
  | text (content : Option String)
  | array (items : List Value)
  | object (members : List (Option String × Value))

/-- The key of a member, absent when it stands for no text. -/
abbrev Key := Option String

/-- An array or object that is still open, with what it holds so far in reverse. -/
inductive Frame
  | array (items : List Value)
  /-- An object that waits for the value of a key. -/
  | object (members : List (Key × Value)) (key : Key)

inductive Expectation
  | value
  /-- A value, or the end of an array just opened. -/
  | firstItem
  | firstKey
  | key (members : List (Key × Value))
  | colon (members : List (Key × Value)) (key : Key)
  | nextItem (items : List Value)
  | nextMember (members : List (Key × Value))
  | done (value : Value)

/-- The state of the reader: the open frames around what is expected. -/
structure Reader where
  stack : List Frame := []
  expected : Expectation := .value

namespace Reader

def accept (stack : List Frame) (value : Value) : Reader :=
  match stack with
  | [] => ⟨[], .done value⟩
  | .array items :: stack => ⟨stack, .nextItem (value :: items)⟩
  | .object members key :: stack => ⟨stack, .nextMember ((key, value) :: members)⟩

def value? (stack : List Frame) : Token → Option Reader
  | .null => some (accept stack .null)
  | .bool value => some (accept stack (.bool value))
  | .number literal => some (accept stack (.number literal))
  | .text content => some (accept stack (.text content))
  | .openBracket => some ⟨stack, .firstItem⟩
  | .openBrace => some ⟨stack, .firstKey⟩
  | _ => none

def step? (reader : Reader) (token : Token) : Option Reader :=
  match reader with
  | ⟨stack, .value⟩ => value? stack token
  | ⟨stack, .firstItem⟩ =>
    match token with
    | .closeBracket => some (accept stack (.array []))
    | _ => value? (.array [] :: stack) token
  | ⟨stack, .firstKey⟩ =>
    match token with
    | .closeBrace => some (accept stack (.object []))
    | .text key => some ⟨stack, .colon [] key⟩
    | _ => none
  | ⟨stack, .key members⟩ =>
    match token with
    | .text key => some ⟨stack, .colon members key⟩
    | _ => none
  | ⟨stack, .colon members key⟩ =>
    match token with
    | .colon => some ⟨.object members key :: stack, .value⟩
    | _ => none
  | ⟨stack, .nextItem items⟩ =>
    match token with
    | .comma => some ⟨.array items :: stack, .value⟩
    | .closeBracket => some (accept stack (.array items.reverse))
    | _ => none
  | ⟨stack, .nextMember members⟩ =>
    match token with
    | .comma => some ⟨stack, .key members⟩
    | .closeBrace => some (accept stack (.object members.reverse))
    | _ => none
  | ⟨_, .done _⟩ => none

end Reader

namespace Value

def ofText? (text : String) : Option Value := do
  let tokens ← tokens? text.toList
  match ← tokens.foldlM Reader.step? {} with
  | ⟨_, .done value⟩ => some value
  | _ => none

/-- The natural number that a value is, if its spelling has no sign, fraction or
    exponent. -/
def natural? : Value → Option Nat
  | number literal =>
    if literal.toList.all Char.isDigit then some (Nat.ofDigitChars 10 literal.toList 0) else none
  | _ => none

def bool? : Value → Option Bool
  | bool value => some value
  | _ => none

/-- The name that a value is: a string, or an object whose only member has that key
    and no value. -/
def name? : Value → Option String
  | text content => content
  | object [(key, null)] => key
  | _ => none

end Value

end AnsiCanvas.Json
