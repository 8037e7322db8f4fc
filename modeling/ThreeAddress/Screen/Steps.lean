import ThreeAddress.Register.Allocation
import ThreeAddress.Text.Width

/-!
# Stepping through an allocation

A screen that shows the interference graph after each decision of the allocator.  Before the first
step nothing is coloured.
-/

namespace ThreeAddress

/-- A screen at a step.  The width is unknown until the window tells it. -/
structure StepScreen where
  allocation : Allocation
  position : Nat := 0
  width : Nat := 0
deriving Repr

/-- What a key asks for. -/
inductive StepCommand where
  | next | previous | first | last | quit
deriving DecidableEq, Repr

namespace StepCommand

/-- The commands in the order of the help line. -/
def all : List StepCommand := [previous, next, first, last, quit]

/-- The keys of a command. -/
def keys : StepCommand → List String
  | next => ["right", "l", "n", " "]
  | previous => ["left", "h", "p"]
  | first => ["home", "g"]
  | last => ["end", "G"]
  | quit => ["q", "esc", "ctrl+c"]

/-- What the help line says of a command. -/
def help : StepCommand → Text
  | next => "→/n next"
  | previous => "←/p prev"
  | first => "g first"
  | last => "G last"
  | quit => "q quit"

/-- The command of a key. -/
def ofKey? (key : Text) : Option StepCommand :=
  all.find? fun c => c.keys.any fun k => Text.ofString k == key

end StepCommand

namespace StepScreen

/-- The number of steps. -/
def total (s : StepScreen) : Nat := s.allocation.steps.length

/-- The screen after a key, and whether it is to be left. -/
def press (s : StepScreen) (key : Text) : StepScreen × Bool :=
  match StepCommand.ofKey? key with
  | some .quit => (s, true)
  | some .next => ({ s with position := min (s.position + 1) s.total }, false)
  | some .previous => ({ s with position := s.position - 1 }, false)
  | some .first => ({ s with position := 0 }, false)
  | some .last => ({ s with position := s.total }, false)
  | none => (s, false)

/-- The screen in a window of another width. -/
def resize (s : StepScreen) (width : Int) : StepScreen :=
  if 0 < width then { s with width := width.toNat } else s

/-- The step that was taken last. -/
def current? (s : StepScreen) : Option AllocationStep :=
  if s.position = 0 then none else s.allocation.steps[s.position - 1]?

/-- Whether a decision was made for a variable. -/
def isDecided (s : StepScreen) (name : Text) : Bool :=
  (s.allocation.steps.take s.position).any (·.node == name)

/-- What is known of a variable at this step. -/
def state (s : StepScreen) (name : Text) : Text :=
  let colours := (s.current?.map (·.colours)).getD ∅
  match (colours.get? name).bind (s.allocation.file[·]?) with
  | some register => register.block
  | none => if s.isDecided name then "spilled" else "-"

/-- The line of a variable, with names in columns of the given width. -/
def line (s : StepScreen) (columns : Nat) (name : Text) : Text :=
  let graph := s.allocation.graph
  let isCurrent := (s.current?.map (·.node == name)).getD false
  let mark : Text := if isCurrent then "> " else "  "
  let neighbours := (graph.neighbours name).mergeSort fun a b => decide (a ≤ b)
  let others : Text :=
    if neighbours.isEmpty then [] else Text.block ("  -- " ++ Text.join ", " neighbours)
  let degree := Text.padEnd 2 (Text.ofNat (graph.degree name))
  mark ++ Text.padColumns columns name ++ "  deg " ++ degree ++ "  " ++ s.state name ++ others

/-- What stands between two items of the help line. -/
def separator : Text := " • "

/-- What stands for the items that the help line has no room for. -/
def ellipsis : Text := " …"

/-- The help line from an item on, after `used` columns.  An item that does not fit ends the line,
with an ellipsis if there is room for one. -/
def helpFrom (width used : Nat) : List StepCommand → Text
  | [] => []
  | c :: rest =>
    let item : Text := if used = 0 then c.help else separator ++ c.help
    let size := item.width
    if 0 < width ∧ width < used + size then
      if used + ellipsis.width < width then ellipsis else []
    else item ++ helpFrom width (used + size) rest

/-- The screen as text. -/
def view (s : StepScreen) : Text :=
  let nodes := s.allocation.graph.nodes
  let columns := (nodes.map Text.width).foldl max 0
  let title : Text :=
    "Register allocation: step " ++ Text.ofNat s.position ++ "/" ++ Text.ofNat s.total
  let caption : Text := match s.current? with
    | some step => step.description
    | none => "uncolored interference graph"
  let body : List Text := if nodes.isEmpty then ["(no variables)"] else nodes.map (s.line columns)
  Text.lines ([title, caption, []] ++ body ++ [[], helpFrom s.width 0 StepCommand.all])

end StepScreen

end ThreeAddress
