import ThreeAddress.Syntax.Outline

/-!
# Drawn trees

An outline drawn from the top down: the children stand side by side, and their parent is centred
over them with a row of connectors between.  All measures are display columns.
-/

namespace ThreeAddress

variable [Measuring]

/-- A drawn tree: lines that are all `width` columns wide, and the column of the root. -/
structure Drawing where
  lines : List Text
  width : Nat
  root : Nat
deriving Repr, Inhabited

namespace Drawing

/-- The columns between neighbouring children. -/
def spacing : Nat := 3

/-- A label on its own. -/
def leaf (label : Text) : Drawing := ⟨[label], label.width, label.width / 2⟩

/-- The columns of the children's roots, where the first child starts at column `start`. -/
def roots (start : Nat) : List Drawing → List Nat
  | [] => []
  | d :: rest => (start + d.root) :: roots (start + d.width + spacing) rest

/-- The columns that the children take side by side. -/
def totalWidth : List Drawing → Nat
  | [] => 0
  | [d] => d.width
  | d :: rest => d.width + spacing + totalWidth rest

/-- A row of a drawing over its whole width; below the last row it is blank. -/
def rowAt (i : Nat) (d : Drawing) : Text := Text.padColumns d.width ((d.lines[i]?).getD [])

/-- The pieces of a row of the children side by side. -/
def rowPieces (i : Nat) (children : List Drawing) : List Text :=
  (children.map (rowAt i)).intersperse (Text.blanks spacing)

/-- Where a label and the children below it go: the columns they are pushed to the right, the
columns of their roots, and the columns they take together. -/
structure Placement where
  shift : Nat
  indent : Nat
  root : Nat
  positions : List Nat
  width : Nat
deriving Repr

/-- Centres a label over its children.  A label that would stand out to the left pushes the children
to the right. -/
def place (label : Text) (children : List Drawing) : Placement :=
  let positions := roots 0 children
  let center := (positions.headD 0 + positions.getLastD 0) / 2
  let half := label.width / 2
  let shift := center - half
  let indent := half - center
  let root := half + shift
  { shift, indent, root
    positions := positions.map (· + indent)
    width := max (max (totalWidth children + indent) (shift + label.width)) (root + 1) }

/-- Marks a column of a row, which has to be there. -/
def mark? (row : Array UInt8) (column : Nat) (sign : Char) : Option (Array UInt8) :=
  if h : column < row.size then some (row.set column (Text.byte sign)) else none

/-- The sign that leads from a root to a child's root. -/
def connector (root column : Nat) : Char :=
  if column < root then '/' else if root < column then '\\' else '|'

/-- The row of connectors between a root and its children: a blank row in which the column of the
root is marked, and then those of the children. -/
def connectors? (p : Placement) : Option (Array UInt8) := do
  let row ← mark? (Text.blanks p.width).toArray p.root '|'
  p.positions.foldlM (fun row column => mark? row column (connector p.root column)) row

/-- The first line, with the label. -/
def labelRow (label : Text) (p : Placement) : Text :=
  Text.padColumns p.width (Text.blanks p.shift ++ label)

/-- A line below the connectors, with a row of each child. -/
def childRow (children : List Drawing) (p : Placement) (i : Nat) : Text :=
  Text.padColumns p.width (Text.blanks p.indent ++ (rowPieces i children).flatten)

/-- The number of rows of the highest child. -/
def height (children : List Drawing) : Nat := (children.map (·.lines.length)).foldl max 0

/-- A label centred over its children. -/
def above? (label : Text) (children : List Drawing) : Option Drawing := do
  let p := place label children
  let row ← connectors? p
  return {
    lines :=
      labelRow label p :: row.toList :: (List.range (height children)).map (childRow children p)
    width := p.width
    root := p.root }

end Drawing

namespace Outline

mutual

/-- The drawing of an outline, unless a connector falls outside of its row. -/
def draw? : Outline → Option Drawing
  | node label [] => some (.leaf label)
  | node label (c :: cs) => do
    let d ← draw? c
    let ds ← drawAll? cs
    Drawing.above? label (d :: ds)

/-- The drawings of outlines. -/
def drawAll? : List Outline → Option (List Drawing)
  | [] => some []
  | c :: cs => do
    let d ← draw? c
    let ds ← drawAll? cs
    return d :: ds

end

/-- The drawing as text; blanks at the ends of lines are dropped. -/
def drawn (o : Outline) : Text :=
  match o.draw? with
  | none => []
  | some d => Text.lines (d.lines.map Text.trimEndBlanks)

end Outline

end ThreeAddress
