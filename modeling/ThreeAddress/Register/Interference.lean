import ThreeAddress.Dict
import ThreeAddress.Register.LiveRange

/-!
# Interference graphs

The variables of a program, with an edge between two of them if their live ranges overlap.  Every
edge is listed once per direction.  The index of neighbours is kept while the graph is built; a
graph that was stored comes back without it, and the edges then give the same neighbours.
-/

namespace ThreeAddress

/-- An edge from a variable to one that it interferes with. -/
structure Conflict where
  source : Text
  target : Text
deriving DecidableEq, Repr, Inhabited

/-- Nodes in the order of first occurrence, edges, the colours given so far, the number of edges at
each node, and the neighbours of each node unless the index was dropped. -/
structure Interference where
  nodes : List Text := []
  edges : List Conflict := []
  colours : Dict Nat := ⟨[]⟩
  degrees : Dict Nat := ⟨[]⟩
  index : Option (Dict (List Text)) := some ⟨[]⟩
deriving Repr, Inhabited

namespace Interference

/-- Adds a node without edges. -/
def addNode (g : Interference) (name : Text) : Interference :=
  { g with nodes := g.nodes ++ [name], degrees := g.degrees.insert name 0 }

/-- Adds an edge in both directions. -/
def addEdge (g : Interference) (a b : Text) : Interference :=
  { g with
    edges := g.edges ++ [⟨a, b⟩, ⟨b, a⟩]
    degrees := (g.degrees.adjust a 0 (· + 1)).adjust b 0 (· + 1)
    index := g.index.map fun ns => (ns.adjust a [] (· ++ [b])).adjust b [] (· ++ [a]) }

/-- The pairs of a list, each with the earlier element first. -/
def pairs {α : Type} : List α → List (α × α)
  | [] => []
  | a :: rest => rest.map (a, ·) ++ pairs rest

/-- The graph of a list of live ranges. -/
def ofRanges (rs : List LiveRange) : Interference :=
  let nodes := rs.foldl (fun g r => g.addNode r.name) {}
  let conflicts := (pairs rs).filter fun (r, s) => r.overlaps s
  conflicts.foldl (fun g (r, s) => g.addEdge r.name s.name) nodes

/-- The graph without its index, as it comes back from a store. -/
def dropIndex (g : Interference) : Interference := { g with index := none }

/-- The index of neighbours that the edges give. -/
def indexOfEdges (es : List Conflict) : Dict (List Text) :=
  es.foldl (fun ns e => ns.adjust e.source [] (· ++ [e.target])) ∅

/-- The variables that share an edge with `name`. -/
def neighbours (g : Interference) (name : Text) : List Text :=
  ((g.index.getD (indexOfEdges g.edges)).get? name).getD []

/-- Whether two variables interfere. -/
def interferes (g : Interference) (a b : Text) : Bool := (g.neighbours a).contains b

/-- The number of edges at a variable. -/
def degree (g : Interference) (name : Text) : Nat := (g.degrees.get? name).getD 0

/-- The largest degree. -/
def maxDegree (g : Interference) : Nat := g.degrees.entries.foldl (fun m e => max m e.2) 0

/-- Gives a colour to a variable. -/
def paint (g : Interference) (name : Text) (colour : Nat) : Interference :=
  { g with colours := g.colours.insert name colour }

end Interference

end ThreeAddress
