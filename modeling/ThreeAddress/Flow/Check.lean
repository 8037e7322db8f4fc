import ThreeAddress.Flow.Graph

/-!
# Consistent graphs

The check of a graph that may have been put together by hand: its blocks cover the program in
order, its edges agree with the successors and predecessors of the blocks, every block has as many
edges as its last instruction asks for, and the first block is the only entry.
-/

namespace ThreeAddress

/-- What is wrong with a graph. -/
inductive GraphProblem where
  | unknownBlock (id : Text)
  | badStart (id : Text) (got want : Int)
  | badRange (id : Text) (start stop : Int) (count : Nat)
  | badCover (got want : Int)
  | blockCount (listed kept : Nat)
  | missingEnd (e : Edge)
  | missingLink (e : Edge)
  | edgeCount (id : Text) (last : InstrKind) (got : Nat) (want : Int)
  | badExit (id : Text)
  | emptyWithEntry
  | entryCount (got : Nat)
  | wrongEntry (got want : Text)
deriving Repr

namespace GraphProblem

/-- An edge as an arrow. -/
def arrow (e : Edge) : Text := e.source ++ " -> " ++ e.target

/-- The wording of the problem. -/
def message : GraphProblem → Text
  | unknownBlock id => "order lists unknown block " ++ id
  | badStart id got want =>
    "block " ++ id ++ " starts at " ++ Text.ofInt got ++ ", expected " ++ Text.ofInt want
  | badRange id start stop count =>
    "block " ++ id ++ " has a bad range [" ++ Text.ofInt start ++ ", " ++ Text.ofInt stop ++
      "] for " ++ Text.ofNat count ++ " instrs"
  | badCover got want =>
    "blocks cover " ++ Text.ofInt got ++ " instructions, expected " ++ Text.ofInt want
  | blockCount listed kept =>
    Text.ofNat listed ++ " blocks in order, " ++ Text.ofNat kept ++ " in map"
  | missingEnd e => "edge " ++ arrow e ++ " has a missing endpoint"
  | missingLink e => "edge " ++ arrow e ++ " missing from succs/preds"
  | edgeCount id last got want =>
    "block " ++ id ++ " ends with " ++ last.name ++ " and has " ++ Text.ofNat got ++
      " out-edges, expected " ++ Text.ofInt want
  | badExit id => "block " ++ id ++ " exit flag disagrees with its successors"
  | emptyWithEntry => "empty graph has an entry"
  | entryCount got => "expected exactly one entry block, found " ++ Text.ofNat got
  | wrongEntry got want => "entry is " ++ got ++ ", expected " ++ want

end GraphProblem

namespace Graph

/-- The problems of the blocks' ranges, where the next block should start at `next`. -/
def rangeProblems (g : Graph) (next : Int) : List Text → List GraphProblem
  | [] => if next = g.size then [] else [.badCover next g.size]
  | id :: rest =>
    match g.block? id with
    | none => .unknownBlock id :: rangeProblems g next rest
    | some b =>
      (if b.start = next then [] else [.badStart id b.start next]) ++
        (if b.stop < b.start ∨ (b.instrs.length : Int) ≠ b.stop - b.start + 1 then
          [.badRange id b.start b.stop b.instrs.length] else []) ++
        rangeProblems g (b.stop + 1) rest

/-- The problem of an edge. -/
def edgeProblems (g : Graph) (e : Edge) : List GraphProblem :=
  match g.block? e.source, g.block? e.target with
  | some s, some t =>
    if s.succs.contains e.target && t.preds.contains e.source then [] else [.missingLink e]
  | _, _ => [.missingEnd e]

/-- How many edges should leave a block that ends with `last`. -/
def edgesWanted (last : InstrKind) (isLast isDangling : Bool) : Int :=
  if last.isConditional then 2 - (if isLast then 1 else 0) - (if isDangling then 1 else 0)
  else if last.isJump then if isDangling then 0 else 1
  else if isLast then 0 else 1

/-- The problems of a block's end. -/
def exitProblems (g : Graph) (id : Text) (isLast : Bool) : List GraphProblem :=
  match g.block? id with
  | none => []
  | some b =>
    match b.instrs.getLast? with
    | none => []
    | some last =>
      let got := (g.edgesFrom id).length
      let want := edgesWanted last.kind isLast (g.dangling.any (·.block == id))
      (if (got : Int) = want then [] else [.edgeCount id last.kind got want]) ++
        if b.isExit = b.succs.isEmpty then [] else [.badExit id]

/-- The problems of the blocks' ends. -/
def allExitProblems (g : Graph) : List Text → List GraphProblem
  | [] => []
  | id :: rest => g.exitProblems id rest.isEmpty ++ allExitProblems g rest

/-- The problem of the entry.  A graph that has blocks, one of them marked as the entry, but lists
none in its order has no first block to compare with: the answer is then `none`. -/
def entryProblems? (g : Graph) : Option (List GraphProblem) :=
  let entries := (g.blocks.entries.filter (·.2.isEntry)).length
  if g.blocks.entries.isEmpty then
    some (if entries = 0 ∧ g.entry.isEmpty then [] else [.emptyWithEntry])
  else if entries ≠ 1 then some [.entryCount entries]
  else g.order.head?.map fun first => if g.entry = first then [] else [.wrongEntry g.entry first]

/-- The problems of a graph; `none` if the entry cannot be checked. -/
def problems? (g : Graph) : Option (List GraphProblem) :=
  g.entryProblems?.map fun entry =>
    g.rangeProblems 0 g.order ++
      (if g.order.length = g.blocks.size then [] else [.blockCount g.order.length g.blocks.size]) ++
      g.edges.flatMap g.edgeProblems ++ g.allExitProblems g.order ++ entry

/-- The problems of a graph as one message; the inner `none` means that there are none. -/
def check? (g : Graph) : Option (Option Text) :=
  g.problems?.map fun ps =>
    if ps.isEmpty then none else some (Text.join "\n" (ps.map GraphProblem.message))

end Graph

end ThreeAddress
