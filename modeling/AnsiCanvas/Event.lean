import AnsiCanvas.Escape.Collector

/-! # Events

What each byte of a document asks for.  Outside of escape sequences a byte is text
or one of a few controls; inside, only the byte that ends the sequence asks for
something.  Two bytes end the document wherever they stand: the art is over and what
follows is a trailer.
-/

namespace AnsiCanvas

/-- What a byte of a document asks for. -/
inductive Event
  | stop
  | draw (byte : UInt8)
  | carriageReturn
  | lineFeed
  | command (command : Command)
  | rejected (error : EscapeError)
  | silence
  deriving DecidableEq, Repr

namespace Event

/-- Whether a byte ends the document: NUL and SUB do. -/
def isStop (byte : UInt8) : Bool := byte == 0x00 || byte == 0x1A

/-- What a byte asks for, given the sequence that is open. -/
def ofByte (collector : Collector) (byte : UInt8) : Collector × Event :=
  if isStop byte then
    (collector, stop)
  else if collector.isOpen then
    match collector.feed byte with
    | (collector, none) => (collector, silence)
    | (collector, some (.ok asked)) => (collector, command asked)
    | (collector, some (.error error)) => (collector, rejected error)
  else if byte = 0x1B then
    (collector.begin, silence)
  else if byte = 0x0D then
    (collector, carriageReturn)
  else if byte = 0x0A then
    (collector, lineFeed)
  else
    (collector, draw byte)

end Event

end AnsiCanvas
