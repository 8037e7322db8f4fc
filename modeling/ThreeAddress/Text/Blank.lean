import ThreeAddress.Text.CodeSet

/-!
# White space

The characters that count as white space at the ends of a message.
-/

namespace ThreeAddress

/-- White space characters. -/
def spaceCodes : CodeSet := .ofString "9-D 20 85 A0 1680 2000-200A 2028-2029 202F 205F 3000"

/-- Whether a character is white space. -/
def Glyph.isSpace (g : Glyph) : Bool := g.valid && spaceCodes.contains g.code

/-- Drops white space at both ends. -/
def Text.trim (t : Text) : Text :=
  let front := t.glyphs.dropWhile Glyph.isSpace
  (front.reverse.dropWhile Glyph.isSpace).reverse.flatMap (·.bytes)

end ThreeAddress
