import ThreeAddress.Text.Basic

/-!
# Characters of a text

A text is read as UTF-8 from left to right.  Where no well-formed encoding starts, one byte is
taken on its own and stands for the replacement character, so every text has a sequence of
`Glyph`s whose bytes concatenate to it.
-/

namespace ThreeAddress

/-- A character read from a text, with the bytes it was read from.  `valid` is false for a byte
that starts no well-formed encoding; its code is then the replacement character's. -/
structure Glyph where
  code : Nat
  bytes : Text
  valid : Bool := true
deriving DecidableEq, Repr

namespace Glyph

/-- The code of the replacement character. -/
def replacementCode : Nat := 0xFFFD

/-- A byte that starts no well-formed encoding. -/
def stray (b : UInt8) : Glyph := ⟨replacementCode, [b], false⟩

/-- Whether `b` is a continuation byte. -/
def isContinuation (b : UInt8) : Bool := 0x80 ≤ b && b ≤ 0xBF

/-- The payload of a continuation byte. -/
def payload (b : UInt8) : Nat := b.toNat % 64

/-- The second bytes allowed after the first byte of a three-byte encoding: overlong forms and
surrogates are refused. -/
def secondOfThree (a b : UInt8) : Bool :=
  if a = 0xE0 then 0xA0 ≤ b && b ≤ 0xBF
  else if a = 0xED then 0x80 ≤ b && b ≤ 0x9F
  else isContinuation b

/-- The second bytes allowed after the first byte of a four-byte encoding: overlong forms and
codes past the last plane are refused. -/
def secondOfFour (a b : UInt8) : Bool :=
  if a = 0xF0 then 0x90 ≤ b && b ≤ 0xBF
  else if a = 0xF4 then 0x80 ≤ b && b ≤ 0x8F
  else isContinuation b

/-- The first character of a text whose first byte is `a`. -/
def first (a : UInt8) (rest : Text) : Glyph :=
  if a < 0x80 then ⟨a.toNat, [a], true⟩
  else if 0xC2 ≤ a && a ≤ 0xDF then
    match rest with
    | b :: _ =>
      if isContinuation b then ⟨a.toNat % 32 * 64 + payload b, [a, b], true⟩ else stray a
    | [] => stray a
  else if 0xE0 ≤ a && a ≤ 0xEF then
    match rest with
    | b :: c :: _ =>
      if secondOfThree a b && isContinuation c then
        ⟨(a.toNat % 16 * 64 + payload b) * 64 + payload c, [a, b, c], true⟩
      else stray a
    | _ => stray a
  else if 0xF0 ≤ a && a ≤ 0xF4 then
    match rest with
    | b :: c :: d :: _ =>
      if secondOfFour a b && isContinuation c && isContinuation d then
        ⟨((a.toNat % 8 * 64 + payload b) * 64 + payload c) * 64 + payload d, [a, b, c, d], true⟩
      else stray a
    | _ => stray a
  else stray a

end Glyph

namespace Text

/-- The UTF-8 bytes of a code point. -/
def ofCode (n : Nat) : Text :=
  if n < 0x80 then [n.toUInt8]
  else if n < 0x800 then [(0xC0 + n / 64).toUInt8, (0x80 + n % 64).toUInt8]
  else if n < 0x10000 then
    [(0xE0 + n / 4096).toUInt8, (0x80 + n / 64 % 64).toUInt8, (0x80 + n % 64).toUInt8]
  else
    [(0xF0 + n / 262144).toUInt8, (0x80 + n / 4096 % 64).toUInt8, (0x80 + n / 64 % 64).toUInt8,
      (0x80 + n % 64).toUInt8]

/-- The characters of a text, from left to right. -/
def glyphs : Text → List Glyph
  | [] => []
  | a :: rest =>
    let g := Glyph.first a rest
    g :: glyphs (rest.drop (g.bytes.length - 1))
termination_by t => t.length
decreasing_by
  simp only [List.length_drop, List.length_cons]
  omega

/-- The number of characters of a text. -/
def count (t : Text) : Nat := t.glyphs.length

/-- Whether every byte of a text belongs to a well-formed encoding. -/
def isUtf8 (t : Text) : Bool := t.glyphs.all (·.valid)

/-- Pads on the right with blanks up to `width` characters. -/
def padEnd (width : Nat) (t : Text) : Text := t ++ blanks (width - t.count)

/-- Pads on the left with blanks up to `width` characters. -/
def padFront (width : Nat) (t : Text) : Text := blanks (width - t.count) ++ t

end Text

end ThreeAddress
