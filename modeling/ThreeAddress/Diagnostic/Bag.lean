import ThreeAddress.Diagnostic.Basic
import ThreeAddress.Sieve

/-!
# Bags of diagnostics

A bag collects findings up to a limit; a limit of `0` means none.  Findings are sorted by place,
graver ones first, and repeated findings can be dropped: those with a code, a place and a message
that were written out before.
-/

namespace ThreeAddress

/-- Findings, at most `limit` of them unless the limit is `0`. -/
structure Bag where
  items : List Diagnostic := []
  limit : Nat := 0
deriving Repr, Inhabited

namespace Bag

/-- An empty bag; a negative limit means none. -/
def ofLimit (limit : Int) : Bag := { limit := limit.toNat }

/-- Whether the bag takes no further finding. -/
def isFull (b : Bag) : Bool := b.limit != 0 && decide (b.limit ≤ b.items.length)

/-- Adds a finding, unless the bag is full. -/
def add (b : Bag) (d : Diagnostic) : Bag :=
  if b.isFull then b else { b with items := b.items ++ [d] }

/-- Adds findings in order, as long as the bag takes them. -/
def addAll (b : Bag) (ds : List Diagnostic) : Bag := ds.foldl add b

/-- Whether a finding is an error. -/
def hasErrors (b : Bag) : Bool := b.items.any (·.severity.isError)

/-- Whether a finding is a warning. -/
def hasWarnings (b : Bag) : Bool := b.items.any (·.severity == .warning)

/-- Appends the findings of another bag; the limit grows if they would not fit. -/
def merge (b other : Bag) : Bag :=
  let items := b.items ++ other.items
  { items, limit := if b.limit = 0 then 0 else max b.limit items.length }

end Bag

namespace Diagnostic

/-- Whether `a` stands before `b`: by file, start and end, then the graver first, then by code. -/
def before (a b : Diagnostic) : Bool :=
  if a.span.file ≠ b.span.file then a.span.file < b.span.file
  else if a.span.start ≠ b.span.start then a.span.start < b.span.start
  else if a.span.stop ≠ b.span.stop then a.span.stop < b.span.stop
  else if a.severity.rank ≠ b.severity.rank then b.severity.rank < a.severity.rank
  else a.code.number < b.code.number

/-- What findings are told apart by: code, place and message. -/
def key (d : Diagnostic) : Text := d.code.id ++ ":" ++ d.span.text ++ ":" ++ d.message

end Diagnostic

namespace Bag

/-- Sorts the findings; findings that are not ordered keep their order. -/
def sort (b : Bag) : Bag := { b with items := b.items.mergeSort fun x y => !y.before x }

/-- A finding is kept if its key is none of those seen before. -/
def isNew (seen : List Text) (d : Diagnostic) : Bool × List Text :=
  if d.key ∈ seen then (false, seen) else (true, d.key :: seen)

/-- Keeps the first of each finding. -/
def dedup (b : Bag) : Bag := { b with items := (sift isNew [] b.items).1 }

end Bag

end ThreeAddress
