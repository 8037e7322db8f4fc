import ThreeAddress.Flow.Graph
import ThreeAddress.Register.Interference

/-!
# Register allocation

Registers are colours of the interference graph.  The variables are taken one by one, always one of
least degree among those left and of these the first; it gets the least colour that none of its
neighbours has, or is spilled to memory if every colour is taken.  No decision is taken back.  Every
decision is logged together with the colours given up to it.
-/

namespace ThreeAddress

/-- The register file: how many registers there are and what their names start with. -/
structure RegisterFile where
  count : Int := 0
  stem : Text := []
deriving DecidableEq, Repr, Inhabited

namespace RegisterFile

/-- Fills in what is missing: eight registers, named `r`. -/
def normalize (f : RegisterFile) : RegisterFile :=
  ⟨if f.count ≤ 0 then 8 else f.count, if f.stem.isEmpty then "r" else f.stem⟩

/-- The names of the registers. -/
def names (f : RegisterFile) : List Text :=
  (List.range f.normalize.count.toNat).map fun n => f.normalize.stem ++ Text.ofNat n

end RegisterFile

/-- What is decided for a variable. -/
inductive Placement where
  | colour (colour : Nat) (register : Text)
  | spill
deriving DecidableEq, Repr

/-- A decision, with the colours given up to it, its own included. -/
structure AllocationStep where
  index : Nat
  node : Text
  placement : Placement
  colours : Dict Nat
deriving Repr

namespace AllocationStep

/-- The wording of a step. -/
def description (s : AllocationStep) : Text :=
  match s.placement with
  | .colour c _ => "Colored variable " ++ s.node ++ " with color " ++ Text.ofNat c
  | .spill => "Spilled variable " ++ s.node ++ " (no available colors)"

end AllocationStep

/-- The result of an allocation. -/
structure Allocation where
  registers : Dict Text := ⟨[]⟩
  spilled : List Text := []
  graph : Interference := {}
  ranges : List LiveRange := []
  steps : List AllocationStep := []
  blockVariables : Dict (List Text) := ⟨[]⟩
  file : List Text := []
deriving Repr

namespace Interference

/-- The first variable of least degree of `best :: rest`. -/
def leastDegree (g : Interference) (best : Text) : List Text → Text
  | [] => best
  | name :: rest => leastDegree g (if g.degree name < g.degree best then name else best) rest

theorem leastDegree_mem (g : Interference) (best : Text) (rest : List Text) :
  g.leastDegree best rest ∈ best :: rest
  := by
  induction rest generalizing best with
  | nil => simp [leastDegree]
  | cons name rest ih =>
    rw [leastDegree]
    have h := ih (if g.degree name < g.degree best then name else best)
    split at h <;> simp_all only [List.mem_cons] <;> grind

/-- The least of the first `count` colours that no neighbour of `name` has. -/
def freeColour? (g : Interference) (count : Nat) (name : Text) : Option Nat :=
  let used := (g.neighbours name).filterMap g.colours.get?
  (List.range count).find? fun c => !used.contains c

/-- Colours a variable if there is a free colour. -/
def place (g : Interference) (file : List Text) (name : Text) : Interference × Placement :=
  match g.freeColour? file.length name with
  | some c => (g.paint name c, .colour c (file.getD c []))
  | none => (g, .spill)

/-- Places the variables of a work list, where `index` is the number of the next step. -/
def colourFrom (g : Interference) (file : List Text) (index : Nat) :
    List Text → Interference × List AllocationStep
  | [] => (g, [])
  | first :: rest =>
    let name := g.leastDegree first rest
    let (g', placement) := g.place file name
    let (g'', steps) := g'.colourFrom file (index + 1) ((first :: rest).erase name)
    (g'', ⟨index, name, placement, g'.colours⟩ :: steps)
termination_by work => work.length
decreasing_by
  rw [List.length_erase_of_mem (g.leastDegree_mem first rest)]
  simp

/-- Places every variable of the graph. -/
def colour (g : Interference) (file : List Text) : Interference × List AllocationStep :=
  g.colourFrom file 0 g.nodes

end Interference

namespace Graph

/-- The variables that each block mentions, in the order of first occurrence. -/
def blockVariables (g : Graph) : Dict (List Text) :=
  .ofList (g.order.map fun id =>
    (id, (((g.block? id).map (·.instrs.flatMap Instr.mentioned)).getD []).eraseDups))

end Graph

namespace Allocation

/-- Allocates registers to the variables of a program.  A graph of its blocks serves only to tell
which block mentions which variables. -/
def ofProgram (file : RegisterFile) (blocks : Option Graph) (p : Program) : Allocation :=
  let ranges := p.liveRanges
  let (graph, steps) := (Interference.ofRanges ranges).colour file.names
  let register? (name : Text) : Option Text := do file.names[← graph.colours.get? name]?
  { registers := .ofList (graph.nodes.filterMap fun name => (register? name).map (name, ·))
    spilled := graph.nodes.filter fun name => (register? name).isNone
    graph, ranges, steps
    blockVariables := (blocks.map Graph.blockVariables).getD ∅
    file := file.names }

end Allocation

end ThreeAddress
