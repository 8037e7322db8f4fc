import ThreeAddress.Text.Utf8

/-!
# Durations

A duration in nanoseconds is written with the largest unit that makes it at least one, and with as
many decimals as it needs.  From one second on it is split into hours, minutes and seconds.
-/

namespace ThreeAddress

namespace Duration

/-- Nanoseconds per microsecond. -/
def microsecond : Nat := 1000

/-- Nanoseconds per millisecond. -/
def millisecond : Nat := 1000000

/-- Nanoseconds per second. -/
def second : Nat := 1000000000

/-- The decimals of a fraction of `places` digits, without the zeros at the end. -/
def decimals (places n : Nat) : Text :=
  let digits := ((Text.zeroPad places (Text.ofNat n)).reverse.dropWhile (· == Text.byte '0')).reverse
  if digits.isEmpty then [] else "." ++ digits

/-- A number of units of `size = 10 ^ places` nanoseconds. -/
def units (size places n : Nat) : Text := Text.ofNat (n / size) ++ decimals places (n % size)

/-- The text of a duration that is not negative. -/
def magnitude (n : Nat) : Text :=
  if n = 0 then "0s"
  else if n < microsecond then Text.ofNat n ++ "ns"
  else if n < millisecond then units microsecond 3 n ++ "µs"
  else if n < second then units millisecond 6 n ++ "ms"
  else
    let minutes := n / (60 * second)
    let hours : Text := if minutes < 60 then [] else Text.ofNat (minutes / 60) ++ "h"
    let rest : Text := if minutes = 0 then [] else Text.ofNat (minutes % 60) ++ "m"
    hours ++ rest ++ units second 9 (n % (60 * second)) ++ "s"

/-- The text of a duration. -/
def text (n : Int) : Text := if n < 0 then "-" ++ magnitude n.natAbs else magnitude n.toNat

/-- The nearest multiple of a unit, a half upwards. -/
def round (size : Nat) (n : Nat) : Nat :=
  if 2 * (n % size) < size then n - n % size else n + (size - n % size)

end Duration

end ThreeAddress
