import AnsiCanvas.Escape.Parameter
import AnsiCanvas.Position
import AnsiCanvas.Screen.Erase
import AnsiCanvas.Text.Hex
import AnsiCanvas.Text.Utf8

/-! # Commands

The meaning of an escape sequence.  The final letter chooses a family of commands,
and the text before it has to suit that family.  The numbers of a command are
defaulted and in range, so that it can be carried out without further checks.
-/

namespace AnsiCanvas

inductive Command
  /-- Move the cursor; the amount is at least one. -/
  | move (direction : Direction) (amount : Nat)
  /-- Place the cursor; both coordinates are at least one. -/
  | place (row column : Nat)
  | eraseDisplay (extent : DisplayErase)
  | eraseLine (extent : LineErase)
  | save
  | restore
  /-- Change the pen; the codes are below 256. -/
  | rendition (codes : List Nat)
  /-- Known, without effect on a still picture. -/
  | ignored (letter : UInt8)
  /-- Known, with an effect that there is no way to have. -/
  | unhandled (letter : UInt8)
  deriving DecidableEq, Repr

inductive Malformation
  | missingBracket
  | tooManyParameters
  | unexpectedParameters
  | renditionOutOfRange
  deriving DecidableEq, Repr

def Malformation.message : Malformation → String
  | missingBracket => "missing '['"
  | tooManyParameters => "too many parameters"
  | unexpectedParameters => "unexpected parameters"
  | renditionOutOfRange => "rendition code outside 0..=255"

inductive EscapeError
  /-- The text does not suit the final letter.  The sequence includes that letter. -/
  | malformed (sequence : String) (reason : Malformation)
  | unknownTerminator (byte : UInt8) (sequence : String)
  deriving DecidableEq, Repr

def EscapeError.message : EscapeError → String
  | malformed sequence reason => "invalid code ESC" ++ sequence ++ ": " ++ reason.message
  | unknownTerminator byte sequence =>
    "unknown terminator " ++ Text.hexByte byte ++ " after ESC" ++ sequence

namespace Command

/-- The control sequences that have an effect on the picture. -/
inductive Control
  | motion (direction : Direction)
  | eraseDisplay
  | eraseLine
  | place
  | save
  | restore
  | rendition
  deriving DecidableEq, Repr

/-- What a final letter chooses. -/
inductive Family
  | control (kind : Control)
  | ignored
  /-- Escapes that consist of the letter alone. -/
  | bare
  deriving DecidableEq, Repr

def Family.ofLetter? (letter : UInt8) : Option Family :=
  match Char.ofNat letter.toNat with
  | 'A' => some (.control (.motion .up))
  | 'B' => some (.control (.motion .down))
  | 'C' => some (.control (.motion .forward))
  | 'D' => some (.control (.motion .back))
  | 'J' => some (.control .eraseDisplay)
  | 'K' => some (.control .eraseLine)
  | 'H' | 'f' => some (.control .place)
  | 's' => some (.control .save)
  | 'u' => some (.control .restore)
  | 'm' => some (.control .rendition)
  | 'E' | 'F' | 'G' | 'S' | 'T' | 'h' | 'l' => some .ignored
  | 'N' | 'O' | 'P' | 'X' | '\x5c' | ']' | '^' | '_' | 'c' => some .bare
  | _ => none

/-- How much of the screen a parameter asks to erase. -/
def displayExtent : Option Parameter → DisplayErase
  | some (.number 1) => .toStart
  | some (.number 2) => .all
  | some (.number 3) => .scrollback
  | _ => .toEnd

def lineExtent : Option Parameter → LineErase
  | some (.number 1) => .toStart
  | some (.number 2) => .all
  | _ => .toEnd

/-- The graphic rendition codes that parameters spell: numbers below 256 only. -/
def renditionCodes? (parameters : List Parameter) : Option (List Nat) :=
  parameters.mapM fun
    | .number value => if value < 256 then some value else none
    | _ => none

def positive (parameter : Option Parameter) : Nat := (parameter.getD .absent).positive

def ofParameters (parameters : List Parameter) : Control → Except Malformation Command
  | .motion direction =>
    if 1 < parameters.length then .error .tooManyParameters
    else .ok (.move direction (positive parameters[0]?))
  | .eraseDisplay =>
    if 1 < parameters.length then .error .tooManyParameters
    else .ok (.eraseDisplay (displayExtent parameters[0]?))
  | .eraseLine =>
    if 1 < parameters.length then .error .tooManyParameters
    else .ok (.eraseLine (lineExtent parameters[0]?))
  | .place =>
    if 2 < parameters.length then .error .tooManyParameters
    else .ok (.place (positive parameters[0]?) (positive parameters[1]?))
  | .save => .ok .save
  | .restore => .ok .restore
  | .rendition =>
    -- Nothing at all stands for a reset, but an absent code among others is an error.
    if parameters.isEmpty then .ok (.rendition [0])
    else match renditionCodes? parameters with
      | some codes => .ok (.rendition codes)
      | none => .error .renditionOutOfRange

/-- The parameters in the text of a control sequence, which begins with a bracket. -/
def parameters? (text : List Char) : Option (List Parameter) :=
  match text with
  | '[' :: [] => some []
  | '[' :: body => some ((body.splitOn ';').map Parameter.read)
  | _ => none

/-- The command of a family, given the text before the letter without the blanks
    around it. -/
def ofFamily (letter : UInt8) (text : List Char) : Family → Except Malformation Command
  | .ignored => .ok (.ignored letter)
  | .bare => if text.isEmpty then .ok (.unhandled letter) else .error .unexpectedParameters
  | .control kind =>
    match parameters? text with
    | some parameters => ofParameters parameters kind
    | none => .error .missingBracket

/-- The command of a sequence, given its final letter and the bytes between the
    escape character and that letter. -/
def ofSequence (letter : UInt8) (bytes : List UInt8) : Except EscapeError Command :=
  let text := Text.Utf8.decode bytes
  match Family.ofLetter? letter with
  | none => .error (.unknownTerminator letter (String.ofList text))
  | some family =>
    match ofFamily letter (Text.trim text) family with
    | .ok command => .ok command
    | .error reason =>
      .error (.malformed ((String.ofList text).push (Char.ofNat letter.toNat)) reason)

end Command

end AnsiCanvas
