import ThreeAddress.Code.Json
import ThreeAddress.Flow.Levels
import ThreeAddress.Text.Quoted

/-!
# Graph listings

A graph as lines of text, as a drawing instruction for a graph layouter, and as a JSON document.
-/

namespace ThreeAddress

namespace Block

/-- The line that opens a block. -/
def headline (b : Block) : Text :=
  let entry : List Text := if b.isEntry then ["entry"] else []
  let exit : List Text := if b.isExit then ["exit"] else []
  let tags := entry ++ exit
  let remark : Text := if tags.isEmpty then [] else " (" ++ Text.join ", " tags ++ ")"
  b.id ++ " [" ++ Text.ofInt b.start ++ ".." ++ Text.ofInt b.stop ++ "]" ++ remark

/-- The lines of a block. -/
def lines (b : Block) : List Text :=
  b.headline ::
    (b.instrs.zipIdx.map fun (i, n) =>
      "  " ++ Text.padStart 3 (Text.ofInt (b.start + n)) ++ ": " ++ i.shown) ++
    ["  preds: [" ++ Text.join ", " b.preds ++ "]  succs: [" ++ Text.join ", " b.succs ++ "]"]

/-- The object of a block. -/
def json (b : Block) : Json :=
  .object [("id", .string b.id), ("startLine", .int b.start), ("endLine", .int b.stop),
    ("instructions", .arrayOrNull (b.instrs.map Instr.json)),
    ("predecessors", .arrayOrNull (b.preds.map .string)),
    ("successors", .arrayOrNull (b.succs.map .string)),
    ("isEntry", .bool b.isEntry), ("isExit", .bool b.isExit)]

/-- Escapes backslashes and quotes. -/
def escape (t : Text) : Text := t.flatMap fun b => if b = 92 ∨ b = 34 then [92, b] else [b]

/-- The node of a block in a drawing. -/
def drawn (b : Block) : Text :=
  let row (t : Text) : Text := t ++ "\\l"
  let rows := b.instrs.zipIdx.flatMap fun (i, n) =>
    row (escape (Text.ofInt (b.start + n) ++ ": " ++ i.shown))
  let exit : Text := if b.isExit then ", peripheries=2" else []
  let entry : Text := if b.isEntry then ", style=bold" else []
  "  " ++ Text.quoted b.id ++ " [label=\"" ++ row b.id ++ rows ++ "\"" ++ exit ++ entry ++ "];"

end Block

namespace Edge

/-- The line of an edge. -/
def line (e : Edge) : Text :=
  let remark : Text := if e.label.isEmpty then [] else "  [" ++ e.label ++ "]"
  "  " ++ e.source ++ " -> " ++ e.target ++ remark

/-- The arrow of an edge in a drawing. -/
def drawn (e : Edge) : Text :=
  let label : Text := if e.label.isEmpty then [] else " [label=" ++ Text.quoted e.label ++ "]"
  "  " ++ Text.quoted e.source ++ " -> " ++ Text.quoted e.target ++ label ++ ";"

/-- The object of an edge. -/
def json (e : Edge) : Json :=
  .record [[("from", .string e.source), ("to", .string e.target)], Json.textField "label" e.label]

end Edge

namespace DanglingJump

/-- The line of a jump that leads nowhere. -/
def line (d : DanglingJump) : Text :=
  "warning: " ++ d.block ++ ": " ++ d.message ++ " (instruction " ++ Text.ofInt d.instr ++ ")"

/-- The object of a jump that leads nowhere. -/
def json (d : DanglingJump) : Json :=
  .object [("block", .string d.block), ("instr", .int d.instr), ("label", .string d.label),
    ("message", .string d.message)]

end DanglingJump

namespace Graph

/-- The graph as lines: blocks, edges, levels, what cannot be reached and what leads nowhere. -/
def listing (g : Graph) : Text :=
  if g.order.isEmpty then "  (empty graph)\n"
  else
    let dead := g.unreachable
    Text.lines <| List.flatten [
      g.blockList.flatMap Block.lines,
      ["edges:"], g.edges.map Edge.line,
      ["levels:"],
      g.levels.zipIdx.map fun (ids, n) => "  " ++ Text.ofNat n ++ ": " ++ Text.join "  " ids,
      if dead.isEmpty then [] else ["unreachable: " ++ Text.join ", " dead],
      g.dangling.map DanglingJump.line]

/-- The graph for a graph layouter. -/
def drawn (g : Graph) : Text :=
  Text.lines <| List.flatten [
    ["digraph cfg \x7b", "  node [shape=box, fontname=\"monospace\"];"],
    g.blockList.map Block.drawn,
    g.edges.map Edge.drawn,
    g.dangling.map fun d => "  // " ++ d.block ++ ": " ++ d.message,
    ["\x7d"]]

/-- The document of a graph. -/
def json (g : Graph) : Json :=
  .record [
    [("blocks", .object (g.blocks.sorted.map fun (k, b) => (k, b.json))),
      ("order", .arrayOrNull (g.order.map .string)),
      ("entryBlock", .string g.entry),
      ("exitBlocks", .arrayOrNull (g.exits.map .string)),
      ("edges", .arrayOrNull (g.edges.map Edge.json))],
    Json.listField "diagnostics" (g.dangling.map DanglingJump.json),
    [("instructionCount", .int g.size)]]

end Graph

end ThreeAddress
