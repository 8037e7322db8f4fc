import ThreeAddress.Decimal.Binary64
import ThreeAddress.Text.Basic

/-!
# The shortest decimal of a double

A double stands for every real that rounds to it.  `shortest` finds the fewest decimal digits that
name one of them, and among decimals of that length the one nearest to the double itself.  The
written form is positional, without an exponent.
-/

namespace ThreeAddress

namespace Decimal

/-- The decimal `digits * 10 ^ exponent`. -/
structure Digits where
  digits : Nat
  exponent : Int
deriving DecidableEq, Repr

/-- The reals that round to a double, as fractions over the common denominator `den`: they lie
between `low` and `high`, ends included if `closed`. -/
structure Interval where
  value : Nat
  low : Nat
  high : Nat
  den : Nat
  closed : Bool
deriving Repr

/-- The interval of a positive double. -/
def Interval.of (b : Binary64) : Interval :=
  let m := b.mantissa
  let up := Nat.pow 2 b.exponent.toNat
  let below := if m = Binary64.hidden ∧ b.exponent ≠ Binary64.minExponent then 1 else 2
  let down := Nat.pow 2 (-b.exponent).toNat
  ⟨4 * m * up, (4 * m - below) * up, (4 * m + 2) * up, 4 * down, m % 2 == 0⟩

/-- Whether the decimal `d * 10 ^ k` rounds to the double. -/
def Interval.contains (i : Interval) (d : Nat) (k : Int) : Bool :=
  let x := d * Nat.pow 10 k.toNat * i.den
  let s := Nat.pow 10 (-k).toNat
  if i.closed then decide (i.low * s ≤ x) && decide (x ≤ i.high * s)
  else decide (i.low * s < x) && decide (x < i.high * s)

/-- The largest `e` with `10 ^ e ≤ value / den`, counted down from `e`. -/
def floorLog10 (value den : Nat) : (steps : Nat) → (e : Int) → Int
  | 0, e => e
  | steps + 1, e =>
    if den * Nat.pow 10 e.toNat ≤ value * Nat.pow 10 (-e).toNat then e
    else floorLog10 value den steps (e - 1)

/-- The nearest decimal with `n` digits that rounds to the double, where `top` is the exponent of
the leading digit. -/
def Interval.atLength? (i : Interval) (top : Int) (n : Nat) : Option Digits :=
  let k := top - (n - 1 : Nat)
  let num := i.value * Nat.pow 10 (-k).toNat
  let den := i.den * Nat.pow 10 k.toNat
  let d := num / den
  let r := num % den
  let down := d ≠ 0 && i.contains d k
  let up := i.contains (d + 1) k
  if down && up then
    some ⟨if 2 * r < den then d else if den < 2 * r then d + 1 else d + d % 2, k⟩
  else if down then some ⟨d, k⟩
  else if up then some ⟨d + 1, k⟩
  else none

/-- The first length, from `n` on, at which a decimal rounds to the double. -/
def Interval.search (i : Interval) (top : Int) : (steps n : Nat) → Digits
  | 0, _ => ⟨0, 0⟩
  | steps + 1, n => (i.atLength? top n).getD (i.search top steps (n + 1))

/-- The shortest decimal of a positive double. -/
def shortest (b : Binary64) : Digits :=
  let i := Interval.of b
  let guess : Int := ((i.value.log2 : Int) - i.den.log2 + 1) * 30103 / 100000 + 1
  i.search (floorLog10 i.value i.den 4 guess) 17 1

/-- A decimal in positional form. -/
def Digits.positional (d : Digits) : Text :=
  let t := Text.ofNat d.digits
  if 0 ≤ d.exponent then t ++ Text.fill d.exponent.toNat '0'
  else
    let places := (-d.exponent).toNat
    let whole := t.length - places
    let fraction := (Text.zeroPad places (t.drop whole)).reverse.dropWhile (· == 48) |>.reverse
    let point : Text := if fraction.isEmpty then [] else "." ++ fraction
    (if whole = 0 then "0" else t.take whole : Text) ++ point

/-- The shortest positional text that reads back as the double. -/
def ofFloat (x : Float) : Text :=
  match Binary64.decode x.toBits.toNat with
  | none => if x.isNaN then "NaN" else if x < 0 then "-Inf" else "+Inf"
  | some b =>
    let digits : Text := if b.mantissa = 0 then "0" else (shortest b).positional
    if b.negative then "-" ++ digits else digits

end Decimal

end ThreeAddress
