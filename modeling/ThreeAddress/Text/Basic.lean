/-!
# Text as bytes

Source files, messages and listings are lists of bytes: a source file need not be valid UTF-8,
and every offset of the library counts bytes.  `Text` is that type.  A string literal stands for
its UTF-8 bytes, so concatenation mixes literals and texts freely.  The order of texts is the
lexicographic order of their bytes.

What the composed form of a text is and how many columns it takes on a terminal is left to whoever
runs the library.
-/

namespace ThreeAddress

/-- A text is a list of bytes. -/
abbrev Text := List UInt8

namespace Text

/-- The UTF-8 bytes of a string. -/
def ofString (s : String) : Text := s.toUTF8.data.toList

instance : Coe String Text := ⟨ofString⟩

/-- The string whose UTF-8 bytes are `t`, if `t` is valid UTF-8. -/
def toString? (t : Text) : Option String := String.fromUTF8? ⟨t.toArray⟩

/-- The byte of an ASCII character. -/
def byte (c : Char) : UInt8 := c.toNat.toUInt8

/-! ### Numbers -/

/-- The ASCII digit of `n`, for `n < 10`. -/
def digit (n : Nat) : UInt8 := (48 + n).toUInt8

/-- The decimal digits of `n`, without leading zeros. -/
def ofNat (n : Nat) : Text :=
  if n < 10 then [digit n] else ofNat (n / 10) ++ [digit (n % 10)]

/-- The decimal form of an integer, with a minus sign if it is negative. -/
def ofInt : Int → Text
  | .ofNat n => ofNat n
  | .negSucc n => byte '-' :: ofNat (n + 1)

/-- The lower-case hexadecimal digit of `n`, for `n < 16`. -/
def hexDigit (n : Nat) : UInt8 :=
  if n < 10 then digit n else (87 + n).toUInt8

/-- The last `width` hexadecimal digits of `n`. -/
def hex : (width : Nat) → (n : Nat) → Text
  | 0, _ => []
  | width + 1, n => hex width (n / 16) ++ [hexDigit (n % 16)]

/-- Two hexadecimal digits per byte. -/
def hexBytes (t : Text) : Text := t.flatMap fun b => hex 2 b.toNat

/-- The value of a lower-case hexadecimal digit. -/
def hexDigitValue (b : UInt8) : Nat := if b < 58 then b.toNat - 48 else b.toNat - 87

/-- The bytes that a text gives by two hexadecimal digits each. -/
def ofHexBytes : Text → Text
  | a :: b :: rest => (hexDigitValue a * 16 + hexDigitValue b).toUInt8 :: ofHexBytes rest
  | _ => []

/-- The value of a decimal digit. -/
def digitValue? (b : UInt8) : Option Nat :=
  if 48 ≤ b ∧ b ≤ 57 then some (b.toNat - 48) else none

/-- The number a non-empty run of decimal digits denotes. -/
def toNat? : Text → Option Nat
  | [] => none
  | t => t.foldl (fun acc b => do return (← acc) * 10 + (← digitValue? b)) (some 0)

/-! ### Shape -/

/-- The text of `n` copies of the byte `b`. -/
def fill (n : Nat) (b : Char) : Text := List.replicate n (byte b)

/-- `n` blanks. -/
def blanks (n : Nat) : Text := fill n ' '

/-- The texts one after another, with `sep` between neighbours. -/
def join (sep : Text) : List Text → Text
  | [] => []
  | [t] => t
  | t :: rest => t ++ sep ++ join sep rest

theorem join_cons_of_ne_nil (sep t : Text) {ts : List Text} (h : ts ≠ []) :
  join sep (t :: ts) = t ++ sep ++ join sep ts
  := by
  cases ts with
  | nil => exact absurd rfl h
  | cons t' ts => rfl

/-- The texts one after another, each ended by a newline. -/
def lines (ts : List Text) : Text := ts.flatMap fun t => t ++ [10]

/-- Pads on the left with blanks up to `width` bytes. -/
def padStart (width : Nat) (t : Text) : Text := blanks (width - t.length) ++ t

/-- Pads on the left with zeros up to `width` bytes. -/
def zeroPad (width : Nat) (t : Text) : Text := fill (width - t.length) '0' ++ t

/-- The bytes from `start` up to, but not including, `stop`; `none` if the ends are out of order or
outside the text. -/
def slice? (t : Text) (start stop : Int) : Option Text :=
  if 0 ≤ start ∧ start ≤ stop ∧ stop ≤ t.length then
    some ((t.drop start.toNat).take (stop - start).toNat)
  else none

/-- The text of `n` copies of the byte `b`; `none` if there are to be fewer than none. -/
def copies? (n : Int) (b : Char) : Option Text := if n < 0 then none else some (fill n.toNat b)

/-- Drops `p` from the front of `t`, if `t` starts with it. -/
def dropLeading? (p t : Text) : Option Text :=
  if p.isPrefixOf t then some (t.drop p.length) else none

/-- Whether `p` occurs in `t` as a run of consecutive bytes. -/
def occursIn (p : Text) : Text → Bool
  | [] => p.isEmpty
  | b :: t => p.isPrefixOf (b :: t) || occursIn p t

/-- The pieces of `t` between occurrences of the byte `sep`. -/
def splitByte (sep : UInt8) : Text → List Text
  | [] => [[]]
  | b :: t =>
    if b = sep then [] :: splitByte sep t
    else match splitByte sep t with
      | [] => [[b]]
      | piece :: pieces => (b :: piece) :: pieces

/-- Whether a byte lies in the ASCII upper-case letters. -/
def isUpperByte (b : UInt8) : Bool := 65 ≤ b && b ≤ 90

/-- Lower-cases the ASCII letters. -/
def lowerAscii (t : Text) : Text := t.map fun b => if isUpperByte b then b + 32 else b

/-- Drops every carriage return that stands directly before a newline. -/
def dropReturns : Text → Text
  | [] => []
  | 13 :: 10 :: rest => 10 :: dropReturns rest
  | b :: rest => b :: dropReturns rest

/-- Drops trailing blanks. -/
def trimEndBlanks (t : Text) : Text := (t.reverse.dropWhile (· == 32)).reverse

end Text

/-! ### Composed form and columns -/

/-- A way to compose texts: to write a character that several code points stand for with one. -/
class Composing where
  compose : Text → Text

/-- The composed form of a text. -/
def Text.compose [Composing] (t : Text) : Text := Composing.compose t

/-- A count of the terminal columns that texts take. -/
class Measuring where
  width : Text → Nat

/-- The columns that a text takes. -/
def Text.width [Measuring] (t : Text) : Nat := Measuring.width t

/-- Pads on the right with blanks up to `columns` columns. -/
def Text.padColumns [Measuring] (columns : Nat) (t : Text) : Text := t ++ blanks (columns - t.width)

end ThreeAddress
