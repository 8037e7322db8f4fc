/-!
# Double-precision numbers as fractions

A finite double is `mantissa * 2 ^ exponent`.  `Binary64.decode` reads the two numbers off its
bits, and `Binary64.ofRatio` rounds a fraction to the nearest double, a tie going to the even
mantissa.
-/

namespace ThreeAddress

/-- A finite double `± mantissa * 2 ^ exponent`. -/
structure Binary64 where
  negative : Bool
  mantissa : Nat
  exponent : Int
deriving DecidableEq, Repr

namespace Binary64

/-- The exponent of the least positive double. -/
def minExponent : Int := -1074

/-- The least mantissa of a normal double. -/
def hidden : Nat := Nat.pow 2 52

/-- The bits of positive infinity. -/
def infinityBits : Nat := 0x7FF * hidden

/-- Reads sign, mantissa and exponent; infinities and NaN have no finite form. -/
def decode (bits : Nat) : Option Binary64 :=
  let biased := bits / hidden % 2048
  let fraction := bits % hidden
  let negative := bits / Nat.pow 2 63 == 1
  if biased = 2047 then none
  else if biased = 0 then some ⟨negative, fraction, minExponent⟩
  else some ⟨negative, fraction + hidden, minExponent + (biased - 1 : Nat)⟩

/-- The quotient `num / den` rounded to the nearest integer, a tie going to the even one. -/
def roundDiv (num den : Nat) : Nat :=
  let q := num / den
  let r := num % den
  if 2 * r < den then q
  else if den < 2 * r then q + 1
  else q + q % 2

/-- The fraction `num / (den * 2 ^ e)`, as a numerator and a denominator. -/
def scale (num den : Nat) (e : Int) : Nat × Nat :=
  if 0 ≤ e then (num, den * Nat.pow 2 e.toNat) else (num * Nat.pow 2 (-e).toNat, den)

/-- The largest `e` with `2 ^ e ≤ num / den`, for positive `num` and `den`. -/
def floorLog2 (num den : Nat) : Int :=
  let e : Int := (num.log2 : Int) - den.log2
  let (n, d) := scale num den e
  if n < d then e - 1 else e

/-- The bits of the double nearest to the positive fraction `num / den`. -/
def ofRatio (num den : Nat) : Nat :=
  if num = 0 ∨ den = 0 then 0
  else
    let e := max (floorLog2 num den - 52) minExponent
    let (n, d) := scale num den e
    min (roundDiv n d + (e - minExponent).toNat * hidden) infinityBits

/-! ### Remainders -/

/-- The remainder of the magnitudes, as a mantissa and an exponent.  Over a common power of two
it is a remainder of natural numbers. -/
def remainder (a b : Binary64) : Nat × Int :=
  let e := min a.exponent b.exponent
  let scaled (x : Binary64) : Nat := x.mantissa * Nat.pow 2 (x.exponent - e).toNat
  (scaled a % scaled b, e)

end Binary64

/-- The remainder of `a` and `b` by a quotient rounded toward zero.  It has the sign of the
dividend, also when it is zero.  There is none for an infinite dividend or a zero divisor; an
infinite divisor leaves the dividend as it is. -/
def floatRemainder (a b : Float) : Float :=
  match Binary64.decode a.toBits.toNat with
  | none => 0 / 0
  | some x =>
    match Binary64.decode b.toBits.toNat with
    | none => if b.isNaN then b else a
    | some y =>
      if y.mantissa = 0 then 0 / 0
      else
        let (m, e) := x.remainder y
        let r := (Float.ofNat m).scaleB e
        if x.negative then -r else r

end ThreeAddress
