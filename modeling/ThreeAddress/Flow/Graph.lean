import ThreeAddress.Code.Instr
import ThreeAddress.Dict
import ThreeAddress.Word

/-!
# Control-flow graphs

The basic blocks of a program and the ways control goes between them.  A block starts at a leader:
the first instruction, a label, or the instruction after a jump.  A block is named after the place
where it starts.  A jump to a label that does not exist has no edge and is remarked upon.

A graph is built in passes over its order: one that adds the blocks, one that adds the edges, and
one that marks the exits.  An edge names a block at either end, and a step that finds no block of a
name is `none`.
-/

namespace ThreeAddress

/-- A run of instructions from place `start` to place `stop`, both included. -/
structure Block where
  id : Text
  start : Int
  stop : Int
  instrs : List Instr := []
  preds : List Text := []
  succs : List Text := []
  isEntry : Bool := false
  isExit : Bool := false
deriving Repr, Inhabited

/-- A way from one block to another.  The label is empty if control always goes this way. -/
structure Edge where
  source : Text
  target : Text
  label : Text := []
deriving DecidableEq, Repr, Inhabited

/-- A jump of a block to a label that does not exist. -/
structure DanglingJump where
  block : Text
  instr : Int
  label : Text
  message : Text
deriving DecidableEq, Repr, Inhabited

/-- The blocks of a program by name, their order in the program, and the edges between them. -/
structure Graph where
  blocks : Dict Block := ⟨[]⟩
  order : List Text := []
  entry : Text := []
  exits : List Text := []
  edges : List Edge := []
  dangling : List DanglingJump := []
  size : Int := 0
deriving Repr, Inhabited

namespace Graph

/-- The name of the block that starts at a place. -/
def blockName (start : Nat) : Text := "B" ++ Text.ofNat start

/-- The label of the edge that a conditional jump not taken follows. -/
def fallThrough : Text := "fall-through"

/-! ### Binary search -/

/-- The number of names at the front of an order that have a negative distance, if their end lies
between `low` and `high`; every step halves what is left between the two.  It is `none` where a name
has no distance. -/
def searchOrder? (distance? : Text → Option Int) (order : List Text) (low high : Nat) :
    Option Nat :=
  if low < high then
    let middle := (low + high) / 2
    match order[middle]?.bind distance? with
    | none => none
    | some distance =>
      if distance < 0 then searchOrder? distance? order (middle + 1) high
      else searchOrder? distance? order low middle
  else some low
termination_by high - low

/-! ### Where blocks start -/

/-- The places where a block starts, as one pass over a program finds them: the first place, those
of labels, and those after jumps. -/
def foundLeaders (p : Program) : List Nat :=
  0 :: p.zipIdx.flatMap fun (i, n) =>
    (if i.kind == .label && decide (0 < n) then [n] else [])
      ++ (if i.kind.isJump && decide (n + 1 < p.length) then [n + 1] else [])

/-- The places where a block starts, in order and each once. -/
def findLeaders (p : Program) : List Nat := (foundLeaders p).mergeSort.eraseReps

/-- The stretches between leaders, each with the places of its first and last instruction, where
`size` is the length of the program. -/
def stretches (size : Nat) : List Nat → List (Nat × Nat)
  | [] => []
  | [a] => [(a, size - 1)]
  | a :: b :: rest => (a, b - 1) :: stretches size (b :: rest)

/-! ### Building a graph -/

/-- The block of a name. -/
def block? (g : Graph) (id : Text) : Option Block := g.blocks.get? id

/-- Changes the block of a name. -/
def update? (g : Graph) (id : Text) (f : Block → Option Block) : Option Graph := do
  let b ← g.block? id
  return { g with blocks := g.blocks.insert id (← f b) }

/-- The block of a stretch, without edges. -/
def plainBlock (p : Program) (c : Nat × Nat) : Block where
  id := blockName c.1
  start := c.1
  stop := c.2
  instrs := (p.drop c.1).take (c.2 + 1 - c.1)

/-- Adds a block behind all others. -/
def addBlock (g : Graph) (b : Block) : Graph :=
  { g with blocks := g.blocks.insert b.id b, order := g.order ++ [b.id] }

/-- The blocks of a program, without edges. -/
def plain (p : Program) : Graph :=
  (stretches p.length (findLeaders p)).foldl (fun g c => g.addBlock (plainBlock p c))
    { size := p.length }

/-- The place in the name of a block. -/
def placeIn (id : Text) : Nat := (Text.toNat? (id.drop 1)).getD 0

/-- Inserts a name into names in the order of their places, once. -/
def insertName? (ids : List Text) (id : Text) : Option (List Text) := do
  let distance (other : Text) : Int := placeIn other - placeIn id
  let n ← searchOrder? (fun other => some (distance other)) ids 0 ids.length
  return if ids[n]?.map distance = some 0 then ids else ids.take n ++ id :: ids.drop n

/-- Adds an edge, which each of the two blocks then lists. -/
def addEdge? (g : Graph) (e : Edge) : Option Graph := do
  let g ← { g with edges := g.edges ++ [e] }.update? e.source fun b => do
    return { b with succs := ← insertName? b.succs e.target }
  g.update? e.target fun b => do
    return { b with preds := ← insertName? b.preds e.source }

/-- Adds the edge of the jump that ends a block, or remarks that its label does not exist. -/
def jump? (p : Program) (b : Block) (last : Instr) (label : Text) (g : Graph) : Option Graph :=
  match p.labelIndex? last.label with
  | some place => g.addEdge? ⟨b.id, blockName place, label⟩
  | none => some { g with
      dangling := g.dangling
        ++ [⟨b.id, b.stop, last.label, "jump to undefined label " ++ last.label⟩] }

/-- Adds the edge to the next block, if there is one. -/
def goOn? (b : Block) (next : Option Text) (label : Text) (g : Graph) : Option Graph :=
  match next with
  | some target => g.addEdge? ⟨b.id, target, label⟩
  | none => some g

/-- Adds the edges that leave the block of a name, where `next` is the name of the block after
it. -/
def leave? (p : Program) (id : Text) (next : Option Text) (g : Graph) : Option Graph := do
  let b ← g.block? id
  let last ← b.instrs.getLast?
  match last.kind with
  | .jump => g.jump? p b last []
  | .jumpIfFalse | .jumpIfTrue =>
    let g ← g.jump? p b last last.kind.name
    g.goOn? b next fallThrough
  | _ => g.goOn? b next []

/-- Adds the edges that leave blocks, one block after another. -/
def connect? (p : Program) : List Text → Graph → Option Graph
  | [], g => some g
  | id :: rest, g => do connect? p rest (← g.leave? p id rest.head?)

/-- Marks the first block of the order as the entry. -/
def markFirst? (g : Graph) : Option Graph := do
  let id ← g.order.head?
  let g ← g.update? id fun b => some { b with isEntry := true }
  return { g with entry := id }

/-- Marks those blocks that have no successors as exits. -/
def markExits? : List Text → Graph → Option Graph
  | [], g => some g
  | id :: rest, g => do
    let b ← g.block? id
    if b.succs.isEmpty then
      let g ← g.update? id fun b => some { b with isExit := true }
      markExits? rest { g with exits := g.exits ++ [id] }
    else markExits? rest g

/-- The graph of a program, built step by step. -/
def build? (p : Program) : Option Graph :=
  if p.isEmpty then some { size := p.length }
  else do
    let g := plain p
    let g ← g.connect? p g.order
    let g ← g.markFirst?
    g.markExits? g.order

/-- The graph of a program. -/
def build (p : Program) : Graph := (build? p).getD {}

/-! ### Reading a graph -/

/-- The blocks in order. -/
def blockList (g : Graph) : List Block := g.order.filterMap g.block?

/-- The edges that leave a block. -/
def edgesFrom (g : Graph) (id : Text) : List Edge := g.edges.filter (·.source == id)

/-- The block that holds the instruction at a place. -/
def blockAt? (g : Graph) (place : Int) : Option Block :=
  g.blockList.find? fun b => decide (b.start ≤ place) && decide (place ≤ b.stop)

/-- How far the block of a name starts behind a place, as a word; `none` if there is no such
block. -/
def distance? (g : Graph) (place : Int) (id : Text) : Option Int :=
  (g.block? id).map fun b => Word.minus b.start place

/-- Whether the block at number `n` of the order starts at a place; behind the last one none
does. -/
def startsAt? (g : Graph) (place : Int) (n : Nat) : Option Bool :=
  match g.order[n]? with
  | some id => (g.distance? place id).map (· == 0)
  | none => some false

/-- The number in the order of the last block that does not start behind a place, counted from zero;
it is -1 if all blocks start behind it. -/
def lastBefore? (g : Graph) (place : Int) : Option Int := do
  let before ← searchOrder? (g.distance? place) g.order 0 g.order.length
  let starts ← g.startsAt? place before
  return if starts then before else (before : Int) - 1

/-- The block that holds the instruction at a place, by a search for the last block that does not
start behind it.  The search itself is `none` where a name in the order has no block. -/
def search? (g : Graph) (place : Int) : Option (Option Block) := do
  let n ← g.lastBefore? place
  if n < 0 ∨ g.order.length ≤ n then return none
  let b ← g.order[n.toNat]?.bind g.block?
  return if b.stop < place then none else some b

end Graph

end ThreeAddress
