import ThreeAddress.Code.Instr
import ThreeAddress.Dict

/-!
# Live ranges

The range of a variable reaches from its first to its last occurrence in the program, written or
read, wherever control may go in between.  Two variables can share a register if their ranges have
no place in common.
-/

namespace ThreeAddress

/-- The places from `start` to `stop`, both included, between which a variable is kept. -/
structure LiveRange where
  name : Text
  start : Int
  stop : Int
deriving DecidableEq, Repr, Inhabited

namespace LiveRange

/-- Whether two ranges have a place in common; both are taken to be non-empty. -/
def overlaps (r s : LiveRange) : Bool := !(r.stop < s.start || s.stop < r.start)

end LiveRange

/-- The ranges of the occurrences read so far, and under every variable the position of its range
among them. -/
structure RangeList where
  ranges : List LiveRange := []
  index : Dict Nat := ∅

/-- Adds an occurrence of a variable at a place: it ends the range of the variable, or starts
one. -/
def RangeList.note (s : RangeList) (name : Text) (place : Nat) : RangeList :=
  match s.index.get? name with
  | some k => { s with ranges := s.ranges.modify k fun r => { r with stop := place } }
  | none => ⟨s.ranges ++ [⟨name, place, place⟩], s.index.insert name s.ranges.length⟩

namespace Instr

/-- The variables that an instruction mentions, written ones first. -/
def mentioned (i : Instr) : List Text :=
  (i.operands.filter (·.isVariable)).map (·.text)

end Instr

namespace Program

/-- The occurrences of variables with their places, from place `start` on. -/
def occurrencesFrom (start : Nat) : Program → List (Text × Nat)
  | [] => []
  | i :: rest => i.mentioned.map (·, start) ++ occurrencesFrom (start + 1) rest

/-- The live ranges of a program's variables, in the order of first occurrence. -/
def liveRanges (p : Program) : List LiveRange :=
  ((occurrencesFrom 0 p).foldl (fun s (name, place) => RangeList.note s name place) {}).ranges

end Program

end ThreeAddress
