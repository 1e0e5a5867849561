/-! # Code page 437

The character set of the art: ASCII in the middle, pictures where ASCII has its
control codes, and letters, blocks and box drawings above.  No byte stands for a
control character, so nothing that is drawn can steer a terminal.
-/

namespace AnsiCanvas.Charset

/-- The pictures drawn for the bytes below the space.  The first is blank. -/
def pictures : Vector Char 32 := #v[
  ' ', '☺', '☻', '♥', '♦', '♣', '♠', '•', '◘', '○', '◙', '♂', '♀', '♪', '♫', '☼',
  '►', '◄', '↕', '‼', '¶', '§', '▬', '↨', '↑', '↓', '→', '←', '∟', '↔', '▲', '▼']

/-- The characters of the bytes from 0x7F on. -/
def upper : Vector Char 129 := #v[
  '⌂',
  'Ç', 'ü', 'é', 'â', 'ä', 'à', 'å', 'ç', 'ê', 'ë', 'è', 'ï', 'î', 'ì', 'Ä', 'Å',
  'É', 'æ', 'Æ', 'ô', 'ö', 'ò', 'û', 'ù', 'ÿ', 'Ö', 'Ü', '¢', '£', '¥', '₧', 'ƒ',
  'á', 'í', 'ó', 'ú', 'ñ', 'Ñ', 'ª', 'º', '¿', '⌐', '¬', '½', '¼', '¡', '«', '»',
  '░', '▒', '▓', '│', '┤', '╡', '╢', '╖', '╕', '╣', '║', '╗', '╝', '╜', '╛', '┐',
  '└', '┴', '┬', '├', '─', '┼', '╞', '╟', '╚', '╔', '╩', '╦', '╠', '═', '╬', '╧',
  '╨', '╤', '╥', '╙', '╘', '╒', '╓', '╫', '╪', '┘', '┌', '█', '▄', '▌', '▐', '▀',
  'α', 'ß', 'Γ', 'π', 'Σ', 'σ', 'µ', 'τ', 'Φ', 'Θ', 'Ω', 'δ', '∞', 'φ', 'ε', '∩',
  '≡', '±', '≥', '≤', '⌠', '⌡', '÷', '≈', '°', '∙', '·', '√', 'ⁿ', '²', '■', '\u00a0']

def glyph (byte : UInt8) : Char :=
  if low : byte.toNat < 32 then pictures[byte.toNat]
  else if byte.toNat < 127 then Char.ofNat byte.toNat
  else
    have inside : byte.toNat - 127 < 129 := by have := byte.toNat_lt; omega
    upper[byte.toNat - 127]

end AnsiCanvas.Charset
