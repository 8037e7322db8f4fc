import ThreeAddress.Text.Printable

/-!
# Quoted text

The quoted form of a text shows it between quotes on one line: printable characters as they are,
controls by their escape, other characters by their code point and stray bytes by their value.
-/

namespace ThreeAddress

namespace Quoted

/-- The letter of a control character's short escape. -/
def shortEscape? (code : Nat) : Option Char :=
  match code with
  | 7 => some 'a'
  | 8 => some 'b'
  | 9 => some 't'
  | 10 => some 'n'
  | 11 => some 'v'
  | 12 => some 'f'
  | 13 => some 'r'
  | _ => none

/-- The escaped form of a code point inside quotes of the kind `quote`. -/
def escapeCode (quote : Char) (code : Nat) : Text :=
  if code = quote.toNat ∨ code = 92 then [92, code.toUInt8]
  else if isPrintable code then Text.ofCode code
  else match shortEscape? code with
    | some c => [92, Text.byte c]
    | none =>
      if code < 0x20 ∨ code = 0x7F then "\\x" ++ Text.hex 2 code
      else if code < 0x10000 then "\\u" ++ Text.hex 4 code
      else "\\U" ++ Text.hex 8 code

/-- The escaped form of a character between double quotes. -/
def escapeGlyph (g : Glyph) : Text :=
  match g.valid, g.bytes with
  | false, b :: _ => "\\x" ++ Text.hex 2 b.toNat
  | _, _ => escapeCode '"' g.code

end Quoted

/-- The text between double quotes. -/
def Text.quoted (t : Text) : Text :=
  [34] ++ t.glyphs.flatMap Quoted.escapeGlyph ++ [34]

/-- A code point between single quotes. -/
def Text.quotedCode (code : Nat) : Text :=
  [39] ++ Quoted.escapeCode '\'' code ++ [39]

end ThreeAddress
