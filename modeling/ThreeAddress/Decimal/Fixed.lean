import ThreeAddress.Decimal.Binary64
import ThreeAddress.Text.Basic

/-!
# Fixed decimal places

A double written with a given number of places after the point.  The value is rounded from its
exact binary form, a tie going to the even digit.
-/

namespace ThreeAddress

namespace Decimal

/-- The natural number nearest to `b * 10 ^ places`, without the sign. -/
def scaled (places : Nat) (b : Binary64) : Nat :=
  let (num, den) := Binary64.scale (b.mantissa * Nat.pow 10 places) 1 (-b.exponent)
  Binary64.roundDiv num den

/-- A double with `places` digits after the point. -/
def fixed (places : Nat) (x : Float) : Text :=
  match Binary64.decode x.toBits.toNat with
  | none => if x.isNaN then "NaN" else if 0 < x then "+Inf" else "-Inf"
  | some b =>
    let digits := Text.zeroPad (places + 1) (Text.ofNat (scaled places b))
    let whole := digits.length - places
    let sign : Text := if b.negative then "-" else []
    let point : Text := if places = 0 then [] else "."
    sign ++ digits.take whole ++ point ++ digits.drop whole

end Decimal

end ThreeAddress
