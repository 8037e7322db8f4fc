import ThreeAddress.Text.Utf8

/-!
# Sets and tables of code points

Properties of characters are given as sorted lists of closed ranges of code points, written as a
string of hexadecimal numbers: `41-5A 5F` is the range from `41` to `5A` and the single code point
`5F`.  A table attaches a value to each entry in the same notation.
-/

namespace ThreeAddress

/-- A set of code points, as a list of closed ranges. -/
structure CodeSet where
  ranges : List (Nat × Nat)
deriving Repr

/-- The value of a hexadecimal digit, `0` for any other character. -/
def hexValue (c : Char) : Nat :=
  if '0' ≤ c ∧ c ≤ '9' then c.toNat - 48
  else if 'A' ≤ c ∧ c ≤ 'F' then c.toNat - 55
  else if 'a' ≤ c ∧ c ≤ 'f' then c.toNat - 87
  else 0

/-- The number written by hexadecimal digits. -/
def hexNumber (digits : List Char) : Nat :=
  digits.foldl (fun n c => n * 16 + hexValue c) 0

/-- The number written by decimal digits. -/
def decimalNumber (digits : List Char) : Nat :=
  digits.foldl (fun n c => n * 10 + hexValue c) 0

/-- The maximal runs of characters other than `sep`. -/
def pieces (sep : Char) (cs : List Char) : List (List Char) :=
  (cs.splitOnP (· == sep)).filter (! ·.isEmpty)

namespace CodeSet

/-- Reads one entry, `lo-hi` or a single code point. -/
def readRange (entry : List Char) : Nat × Nat :=
  match pieces '-' entry with
  | [lo, hi] => (hexNumber lo, hexNumber hi)
  | _ => (hexNumber entry, hexNumber entry)

/-- Reads a set from its ranges, separated by blanks. -/
def ofString (s : String) : CodeSet := ⟨(pieces ' ' s.toList).map readRange⟩

/-- Whether a code point belongs to one of the ranges. -/
def contains (s : CodeSet) (c : Nat) : Bool :=
  s.ranges.any fun (lo, hi) => decide (lo ≤ c) && decide (c ≤ hi)

end CodeSet

end ThreeAddress
