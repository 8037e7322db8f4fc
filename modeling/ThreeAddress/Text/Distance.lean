import ThreeAddress.Text.Basic

/-!
# Edit distance

The least number of insertions, deletions and replacements of bytes that lead from one text to
another.
-/

namespace ThreeAddress

namespace Distance

/-- The distances from a longer text by one byte `a`, given those from the text before, to all
fronts of another text.  `corner` and `left` are the last entries of the two rows. -/
def extendRow (a : UInt8) (corner left : Nat) : Text → List Nat → List Nat
  | b :: bs, above :: rest =>
    let here := if a = b then corner else 1 + min corner (min left above)
    here :: extendRow a above here bs rest
  | _, _ => []

/-- The row after a byte. -/
def nextRow (target : Text) (row : List Nat) (a : UInt8) : List Nat :=
  match row with
  | [] => []
  | first :: rest => (first + 1) :: extendRow a first (first + 1) target rest

end Distance

/-- The edit distance of two texts. -/
def Text.distance (source target : Text) : Nat :=
  (source.foldl (Distance.nextRow target) (List.range (target.length + 1))).getLastD 0

end ThreeAddress
