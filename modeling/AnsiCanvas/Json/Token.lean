import AnsiCanvas.Text.Hex

/-! # JSON tokens

A JSON text is cut into tokens one character at a time.  A number ends where its
grammar allows no further character, so the character after it is looked at again.
Text content is absent when an escape names half of a surrogate pair: such a string
is well-formed and stands for no text.
-/

namespace AnsiCanvas.Json

inductive Token
  | openBrace
  | closeBrace
  | openBracket
  | closeBracket
  | colon
  | comma
  | null
  | bool (value : Bool)
  | number (literal : String)
  | text (content : Option String)
  deriving DecidableEq, Repr

/-- How far a number has come. -/
inductive NumberPhase
  | minus
  | zero
  | integer
  | point
  | fraction
  | exponent
  | exponentSign
  | exponentDigits
  deriving DecidableEq, Repr

namespace NumberPhase

def isComplete : NumberPhase → Bool
  | zero | integer | fraction | exponentDigits => true
  | minus | point | exponent | exponentSign => false

/-- The phase after one more character, if the number goes on with it. -/
def next? (phase : NumberPhase) (c : Char) : Option NumberPhase :=
  match phase with
  | minus => if c = '0' then some zero else if c.isDigit then some integer else none
  | zero => if c = '.' then some point else if c = 'e' ∨ c = 'E' then some exponent else none
  | integer =>
    if c.isDigit then some integer
    else if c = '.' then some point
    else if c = 'e' ∨ c = 'E' then some exponent
    else none
  | point => if c.isDigit then some fraction else none
  | fraction =>
    if c.isDigit then some fraction else if c = 'e' ∨ c = 'E' then some exponent else none
  | exponent =>
    if c.isDigit then some exponentDigits
    else if c = '+' ∨ c = '-' then some exponentSign
    else none
  | exponentSign | exponentDigits => if c.isDigit then some exponentDigits else none

end NumberPhase

structure Content where
  written : String := ""
  /-- The first half of a surrogate pair, waiting for the second. -/
  high : Option Nat := none
  /-- Whether every escape so far named a character. -/
  isWhole : Bool := true
  deriving DecidableEq, Repr

namespace Content

/-- Gives up waiting for the second half of a pair. -/
def settle (content : Content) : Content :=
  match content with
  | ⟨written, none, isWhole⟩ => ⟨written, none, isWhole⟩
  | ⟨written, some _, _⟩ => ⟨written, none, false⟩

def push (content : Content) (c : Char) : Content :=
  match content.settle with
  | ⟨written, high, isWhole⟩ => ⟨written.push c, high, isWhole⟩

/-- Adds what four hexadecimal digits name: a character or half of one. -/
def pushUnit (content : Content) (unit : Nat) : Content :=
  if 0xDC00 ≤ unit ∧ unit < 0xE000 then
    match content with
    | ⟨written, some high, isWhole⟩ =>
      let code := 0x10000 + (high - 0xD800) * 0x400 + (unit - 0xDC00)
      ⟨written.push (Char.ofNat code), none, isWhole⟩
    | ⟨written, none, _⟩ => ⟨written, none, false⟩
  else if 0xD800 ≤ unit ∧ unit < 0xDC00 then
    match content.settle with
    | ⟨written, _, isWhole⟩ => ⟨written, some unit, isWhole⟩
  else
    content.push (Char.ofNat unit)

/-- The text read, if every escape named a character. -/
def text? (content : Content) : Option String :=
  match content.settle with
  | ⟨written, _, isWhole⟩ => if isWhole then some written else none

end Content

inductive StringPhase
  | plain
  | escape
  /-- Inside an escape by code, with the digits still to come and their value so far. -/
  | code (missing : Nat) (value : Nat)
  deriving DecidableEq, Repr

def escaped? : Char → Option Char
  | '\x22' => some '\x22'
  | '\x5c' => some '\x5c'
  | '/' => some '/'
  | 'b' => some '\x08'
  | 'f' => some '\x0c'
  | 'n' => some '\n'
  | 'r' => some '\r'
  | 't' => some '\t'
  | _ => none

inductive Mode
  | between
  /-- A literal name, with the letters still to come. -/
  | word (rest : List Char) (token : Token)
  | number (phase : NumberPhase) (literal : String)
  | string (phase : StringPhase) (content : Content)
  deriving DecidableEq, Repr

structure Tokenizer where
  tokens : Array Token := #[]
  mode : Mode := .between
  deriving Repr

namespace Tokenizer

def mark? : Char → Option Token
  | '\x7b' => some .openBrace
  | '\x7d' => some .closeBrace
  | '[' => some .openBracket
  | ']' => some .closeBracket
  | ':' => some .colon
  | ',' => some .comma
  | _ => none

def isSpace (c : Char) : Bool := c == ' ' || c == '\t' || c == '\n' || c == '\r'

/-- What the first character of a longer token begins. -/
def begin? (c : Char) : Option Mode :=
  if c = '\x22' then some (.string .plain {})
  else if c = '-' then some (.number .minus "-")
  else if c = '0' then some (.number .zero "0")
  else if c.isDigit then some (.number .integer (String.singleton c))
  else if c = 't' then some (.word ['r', 'u', 'e'] (.bool true))
  else if c = 'f' then some (.word ['a', 'l', 's', 'e'] (.bool false))
  else if c = 'n' then some (.word ['u', 'l', 'l'] .null)
  else none

def start? (tokens : Array Token) (c : Char) : Option Tokenizer :=
  if isSpace c then some ⟨tokens, .between⟩
  else match mark? c with
    | some token => some ⟨tokens.push token, .between⟩
    | none => (begin? c).map fun mode => ⟨tokens, mode⟩

def string? (tokens : Array Token) (content : Content) (c : Char) :
    StringPhase → Option Tokenizer
  | .plain =>
    if c = '\x22' then some ⟨tokens.push (.text content.text?), .between⟩
    else if c = '\x5c' then some ⟨tokens, .string .escape content⟩
    else if c.toNat < 0x20 then none
    else some ⟨tokens, .string .plain (content.push c)⟩
  | .escape =>
    if c = 'u' then some ⟨tokens, .string (.code 4 0) content⟩
    else (escaped? c).map fun named => ⟨tokens, .string .plain (content.push named)⟩
  | .code missing value =>
    (Text.hexDigit? c).map fun digit =>
      let value := value * 16 + digit
      if missing ≤ 1 then ⟨tokens, .string .plain (content.pushUnit value)⟩
      else ⟨tokens, .string (.code (missing - 1) value) content⟩

/-- Takes a character, unless no JSON text goes on with it. -/
def step? (state : Tokenizer) (c : Char) : Option Tokenizer :=
  match state with
  | ⟨tokens, .between⟩ => start? tokens c
  | ⟨_, .word [] _⟩ => none
  | ⟨tokens, .word [last] token⟩ =>
    if c = last then some ⟨tokens.push token, .between⟩ else none
  | ⟨tokens, .word (letter :: rest) token⟩ =>
    if c = letter then some ⟨tokens, .word rest token⟩ else none
  | ⟨tokens, .number phase literal⟩ =>
    match phase.next? c with
    | some phase => some ⟨tokens, .number phase (literal.push c)⟩
    | none => if phase.isComplete then start? (tokens.push (.number literal)) c else none
  | ⟨tokens, .string phase content⟩ => string? tokens content c phase

/-- The tokens read, if none is unfinished. -/
def finish? (state : Tokenizer) : Option (List Token) :=
  match state with
  | ⟨tokens, .between⟩ => some tokens.toList
  | ⟨tokens, .number phase literal⟩ =>
    if phase.isComplete then some (tokens.push (.number literal)).toList else none
  | _ => none

end Tokenizer

def tokens? (text : List Char) : Option (List Token) :=
  (text.foldlM Tokenizer.step? {}).bind Tokenizer.finish?

end AnsiCanvas.Json
