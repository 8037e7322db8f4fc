import ThreeAddress.Json
import ThreeAddress.Register.Allocation
import ThreeAddress.Text.Width

/-!
# Allocation listings

An allocation as lines of text and as a JSON document.
-/

namespace ThreeAddress

namespace Allocation

/-- The line of a variable's place. -/
def placeLine (a : Allocation) (columns : Nat) (name : Text) : List Text :=
  let line (place : Text) : Text :=
    "  " ++ Text.padColumns columns name ++ " -> " ++ place ++ "  (degree " ++
      Text.ofNat (a.graph.degree name) ++ ")"
  match a.registers.get? name with
  | some register => [line register]
  | none => if a.spilled.contains name then [line "memory"] else []

/-- The allocation as lines: ranges, conflicts, places and, if asked for, the steps. -/
def listing (a : Allocation) (withSteps : Bool) : Text :=
  if a.graph.nodes.isEmpty then "  (No variables to allocate)\n"
  else
    let columns := a.graph.nodes.foldl (fun w name => max w (Text.width name)) 8
    let shown := a.graph.edges.filter fun e => decide (e.source < e.target)
    let conflicts : List Text := shown.map fun e =>
      "  " ++ e.source ++ " -- " ++ e.target
    let step (s : AllocationStep) : Text :=
      "  " ++ Text.padStart 2 (Text.ofNat (s.index + 1)) ++ ". " ++ s.description
    Text.lines <| List.flatten [
      ["live ranges:"],
      a.ranges.map fun r =>
        "  " ++ Text.padColumns columns r.name ++ " [" ++ Text.ofInt r.start ++ ", " ++
          Text.ofInt r.stop ++ "]",
      ["interference (max degree " ++ Text.ofNat a.graph.maxDegree ++ "):"],
      if conflicts.isEmpty then ["  (none)"] else conflicts,
      ["assignment:"],
      a.graph.nodes.flatMap (a.placeLine columns),
      if a.spilled.isEmpty then [] else ["spilled: " ++ Text.join ", " a.spilled],
      if withSteps then "steps:" :: a.steps.map step else []]

end Allocation

/-- The object of a live range. -/
def LiveRange.json (r : LiveRange) : Json :=
  .object [("variable", .string r.name), ("start", .int r.start), ("end", .int r.stop)]

/-- The object of an edge. -/
def Conflict.json (e : Conflict) : Json :=
  .object [("from", .string e.source), ("to", .string e.target)]

/-- A dictionary as an object, in the order of its keys. -/
def Dict.json {α : Type} (d : Dict α) (f : α → Json) : Json :=
  .object (d.sorted.map fun (k, v) => (k, f v))

/-- The object of an interference graph. -/
def Interference.json (g : Interference) : Json :=
  .object [("nodes", .strings g.nodes), ("edges", .arrayOrNull (g.edges.map Conflict.json)),
    ("nodeColors", g.colours.json .nat), ("nodeDegrees", g.degrees.json .nat)]

/-- The object of a step; a spilled variable has the colour -1. -/
def AllocationStep.json (s : AllocationStep) : Json :=
  let (action, colour, register) : Text × Int × Text := match s.placement with
    | .colour c register => ("color", c, register)
    | .spill => ("spill", -1, [])
  .record [
    [("step", .nat s.index), ("description", .string s.description), ("action", .string action),
      ("node", .string s.node), ("color", .int colour)],
    Json.textField "register" register,
    [("graph", s.colours.json .nat)]]

/-- The document of an allocation. -/
def Allocation.json (a : Allocation) : Json :=
  .record [
    [("variableToRegister", a.registers.json .string),
      ("spilledVariables", .arrayOrNull (a.spilled.map .string)),
      ("interferenceGraph", a.graph.json),
      ("liveRanges", .arrayOrNull (a.ranges.map LiveRange.json)),
      ("allocationSteps", .arrayOrNull (a.steps.map AllocationStep.json))],
    if a.blockVariables.entries.isEmpty then []
    else [("blockVariables", a.blockVariables.json fun ns => .arrayOrNull (ns.map .string))],
    [("registerFile", .strings a.file)]]

end ThreeAddress
