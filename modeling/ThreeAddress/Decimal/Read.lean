import ThreeAddress.Decimal.Binary64
import ThreeAddress.Text.Basic

/-!
# Reading a double

The written forms of a double are `nan`, and an optional sign followed by `inf`, `infinity`, a
decimal with optional fraction and exponent, or a hexadecimal with a binary exponent.  The words
may have any case, and underscores may stand between digits.

A `Numeral` keeps the digits on both sides of the point and the exponent.  Its value is the
nearest double; a number past the largest double is out of range.
-/

namespace ThreeAddress

namespace Decimal

/-- Why a text is not read as a double. -/
inductive ReadError where
  | malformed
  | outOfRange
deriving DecidableEq, Repr

/-- A double with the given sign and magnitude bits. -/
def signed (negative : Bool) (bits : Nat) : Float :=
  Float.ofBits (bits + (if negative then Nat.pow 2 63 else 0)).toUInt64

/-- Splits a text after its longest front of bytes satisfying `p`. -/
def span (p : UInt8 → Bool) (t : Text) : Text × Text := (t.takeWhile p, t.dropWhile p)

/-- Whether a byte is a decimal digit. -/
def isDigit (b : UInt8) : Bool := 48 ≤ b && b ≤ 57

/-- The value of a hexadecimal digit. -/
def hexDigit? (b : UInt8) : Option Nat :=
  if isDigit b then some (b.toNat - 48)
  else if 97 ≤ b ∧ b ≤ 102 then some (b.toNat - 87)
  else if 65 ≤ b ∧ b ≤ 70 then some (b.toNat - 55)
  else none

/-- Whether a byte is a hexadecimal digit. -/
def isHexDigit (b : UInt8) : Bool := (hexDigit? b).isSome

/-- The number that digits of the given base denote. -/
def digitsValue (base : Nat) (t : Text) : Nat :=
  t.foldl (fun n b => n * base + (hexDigit? b).getD 0) 0

/-- Splits off an optional sign; the first part tells whether it was a minus. -/
def splitSign : Text → Bool × Text
  | 43 :: rest => (false, rest)
  | 45 :: rest => (true, rest)
  | t => (false, t)

/-- Whether a byte is an underscore. -/
def isUnderscore (b : UInt8) : Bool := b == 95

/-- Whether each underscore stands between two digits; `after` tells whether the byte before the
text counts as one. -/
def underscoresFit (isDigit : UInt8 → Bool) : Bool → Text → Bool
  | _, [] => true
  | after, b :: t =>
    if isUnderscore b then after && t.head?.any isDigit && underscoresFit isDigit false t
    else underscoresFit isDigit (isDigit b) t

/-- A system of writing numbers. -/
structure NumberSystem where
  isDigit : UInt8 → Bool
  /-- The base that the exponent counts in. -/
  base : Nat
  /-- How many steps of the exponent one digit is worth. -/
  perDigit : Nat
  /-- The small letter before the exponent. -/
  mark : UInt8
  /-- Whether the exponent has to be written. -/
  markNeeded : Bool

namespace NumberSystem

/-- The base of the digits. -/
def digitBase (s : NumberSystem) : Nat := Nat.pow s.base s.perDigit

/-- Decimals such as `12.5e3`. -/
def decimal : NumberSystem := ⟨Decimal.isDigit, 10, 1, Text.byte 'e', false⟩

/-- Hexadecimals such as `c.8p3`, whose exponent counts in twos. -/
def hexadecimal : NumberSystem := ⟨isHexDigit, 2, 4, Text.byte 'p', true⟩

end NumberSystem

/-- The digits of a written number before and after the point, and its exponent. -/
structure Numeral where
  whole : Text
  fraction : Text
  exponent : Int
deriving DecidableEq, Repr

/-- The value of the digits of an exponent; those after the fifth that counts are passed over,
since no double is that large or small. -/
def exponentValue (digits : Text) : Nat :=
  digits.foldl (fun n b => if n < 10000 then n * 10 + (hexDigit? b).getD 0 else n) 0

/-- Reads an exponent after its letter: an optional sign, a digit, and digits or underscores. -/
def exponent? (t : Text) : Option Int :=
  let (negative, digits) := splitSign t
  if digits.head?.any isDigit && digits.all fun b => isDigit b || isUnderscore b then
    let n : Int := exponentValue (digits.filter (!isUnderscore ·))
    some (if negative then -n else n)
  else none

namespace Numeral

/-- Reads a number without sign. -/
def read? (s : NumberSystem) (t : Text) : Option Numeral :=
  let isPart (b : UInt8) : Bool := s.isDigit b || isUnderscore b
  let (whole, rest) := span isPart t
  let (fraction, rest) := match rest with
    | 46 :: rest => span isPart rest
    | _ => ([], rest)
  let whole := whole.filter s.isDigit
  let fraction := fraction.filter s.isDigit
  if whole.isEmpty && fraction.isEmpty then none
  else match rest with
    | [] => if s.markNeeded then none else some ⟨whole, fraction, 0⟩
    | b :: rest =>
      if b == s.mark || b + 32 == s.mark then (exponent? rest).map (⟨whole, fraction, ·⟩) else none

/-- The digits from the first that is not zero. -/
def digits (a : Numeral) : Text := (a.whole ++ a.fraction).dropWhile (· == 48)

/-- Where the point stands, counted in digits from the first that is not zero. -/
def point (a : Numeral) : Int :=
  let whole := a.whole.dropWhile (· == 48)
  if whole.isEmpty then -((a.fraction.takeWhile (· == 48)).length : Int) else whole.length

end Numeral

/-- The bits of the double nearest to `num * base ^ e`. -/
def nearest (num base : Nat) (e : Int) : Nat :=
  Binary64.ofRatio (num * Nat.pow base e.toNat) (Nat.pow base (-e).toNat)

/-- The bits of the double nearest to `0.d₁d₂… * base ^ top` for the given digits, of which the
first is not zero.  From 340 digits before the point on a number is past every double, and from as
many behind it below all of them. -/
def nearestAt (s : NumberSystem) (digits : Text) (top : Int) : Nat :=
  let farthest : Int := 340 * s.perDigit
  if digits.isEmpty || top < -farthest then 0
  else if farthest < top then Binary64.infinityBits
  else nearest (digitsValue s.digitBase digits) s.base (top - s.perDigit * digits.length)

/-- How many digits of a decimal are tried first. -/
def triedDigits : Nat := 19

/-- How many digits of a decimal are kept when those tried first do not settle its double. -/
def keptDigits : Nat := 800

/-- Whether the first digits of `0.d₁d₂… * 10 ^ top` settle the nearest double, whatever digits
follow them. -/
def isSettled (digits : Text) (top : Int) : Bool :=
  let front := digits.take triedDigits
  let next := digitsValue 10 front + 1
  (digits.drop triedDigits).all (· == 48) || top < -340 || 340 < top ||
    nearestAt .decimal front top == nearest next 10 (top - triedDigits)

namespace Numeral

/-- The bits of the double nearest to a hexadecimal. -/
def hexadecimalBits (a : Numeral) : Nat :=
  nearestAt .hexadecimal a.digits (4 * a.point + a.exponent)

/-- The bits of the double nearest to a decimal.  Digits that are not kept count only as a number
above zero, and whole digits among them do not move the point. -/
def decimalBits (a : Numeral) : Nat :=
  let top := a.point + a.exponent
  if a.point ≤ keptDigits || isSettled a.digits top then nearestAt .decimal a.digits top
  else
    let last := if (a.digits.drop keptDigits).all (· == 48) then 48 else 49
    nearestAt .decimal (a.digits.take keptDigits ++ [last]) (keptDigits + a.exponent)

end Numeral

/-- Reads the bits of a number without sign. -/
def readBits (t : Text) : Except ReadError Nat :=
  let bits? := match t with
    | 48 :: x :: b :: rest =>
      if x = 120 ∨ x = 88 then
        if underscoresFit isHexDigit true (b :: rest) then
          (Numeral.read? .hexadecimal (b :: rest)).map Numeral.hexadecimalBits
        else none
      else unprefixed t
    | _ => unprefixed t
  match bits? with
  | none => .error .malformed
  | some bits => if bits = Binary64.infinityBits then .error .outOfRange else .ok bits
where
  /-- The bits of a decimal. -/
  unprefixed (t : Text) : Option Nat :=
    if underscoresFit isDigit false t then (Numeral.read? .decimal t).map Numeral.decimalBits
    else none

/-- Reads a double. -/
def read (t : Text) : Except ReadError Float := do
  if Text.lowerAscii t == "nan" then return signed false (Binary64.infinityBits + Nat.pow 2 51)
  let (negative, body) := splitSign t
  let word := Text.lowerAscii body
  if word == "inf" || word == "infinity" then return signed negative Binary64.infinityBits
  return signed negative (← readBits body)

end Decimal

end ThreeAddress
