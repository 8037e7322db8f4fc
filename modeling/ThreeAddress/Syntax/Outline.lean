import ThreeAddress.Source.FileSet
import ThreeAddress.Syntax.Inline

/-!
# Outlines of programs

A program as a tree of labelled lines: a line for each statement, with its parts below it and its
expressions inline.  The outline is written with branch marks down the left side.
-/

namespace ThreeAddress

/-- A tree of labels. -/
inductive Outline where
  | node (label : Text) (children : List Outline)
deriving Repr, Inhabited

namespace Outline

/-- The label of the root. -/
def label : Outline → Text
  | node l _ => l

/-- The trees below the root. -/
def children : Outline → List Outline
  | node _ cs => cs

/-- A label without children. -/
def leaf (label : Text) : Outline := node label []

end Outline

/-- A span as positions if its file is known, as offsets otherwise. -/
def FileSet.spanText (fs : Option FileSet) (s : Span) : Text :=
  match fs.bind (·.resolve? s) with
  | none => s.text
  | some (a, b) =>
    Text.ofNat a.line.toNat ++ ":" ++ Text.ofNat a.column.toNat ++ "-" ++
      Text.ofNat b.line.toNat ++ ":" ++ Text.ofNat b.column.toNat

/-- A label with the span it is about. -/
def spannedLabel (fs : Option FileSet) (label : Text) (s : Span) : Text :=
  label ++ " (span: " ++ FileSet.spanText fs s ++ ")"

/-- The line of an expression in the given role. -/
def Expr.outline (role : Text) (e : Expr) : Outline := .leaf (role ++ ": " ++ e.inline)

namespace Stmt

mutual

/-- The outline of a statement. -/
def outline (fs : Option FileSet) : Stmt → Outline
  | letVar s name _ value =>
    .node (spannedLabel fs "VariableDeclaration" s)
      [.leaf ("Name: " ++ name), value.outline "Value"]
  | assign s name _ value =>
    .node (spannedLabel fs "Assignment" s) [.leaf ("Target: " ++ name), value.outline "Value"]
  | ifElse s cond thenBody elseBody hasElse =>
    .node (spannedLabel fs "IfStatement" s)
      ([cond.outline "Cond", .node (blockLabel "Then" thenBody.length) (outlines fs thenBody)] ++
        if hasElse then [.node (blockLabel "Else" elseBody.length) (outlines fs elseBody)] else [])
  | .while s cond body =>
    .node (spannedLabel fs "WhileStatement" s)
      [cond.outline "Cond", .node (blockLabel "Body" body.length) (outlines fs body)]
  | function s name _ params body =>
    .node (spannedLabel fs "FunctionDeclaration" s)
      [.leaf ("Name: " ++ name),
        .leaf ("Params: (" ++ Text.join ", " (params.map (·.name)) ++ ")"),
        .node (blockLabel "Body" body.length) (outlines fs body)]
  | ret s value =>
    .node (spannedLabel fs "ReturnStatement" s) (value.toList.map (·.outline "Value"))
  | print s value => .node (spannedLabel fs "PrintStatement" s) [value.outline "Value"]
  | expr s value => .node (spannedLabel fs "ExpressionStatement" s) [value.outline "Expr"]
  | unknown s _ => .leaf (spannedLabel fs "Stmt(?)" s)
  | missing _ => .leaf "<nil stmt>"

/-- The outlines of statements. -/
def outlines (fs : Option FileSet) : List Stmt → List Outline
  | [] => []
  | s :: rest => s.outline fs :: outlines fs rest

/-- The label of a block with its number of statements. -/
def blockLabel (role : Text) (n : Nat) : Text := role ++ " [" ++ Text.ofNat n ++ "]"

end

end Stmt

namespace Tree

/-- The outline of a program under the name of its file. -/
def outline (t : Tree) (fs : Option FileSet) : Outline :=
  let header : Text :=
    match fs.bind fun s => (s.get? t.span.file).map (s.shownPath · .auto) with
    | some path => path
    | none => "Program"
  .node (spannedLabel fs header t.span) (Stmt.outlines fs t.statements)

end Tree

namespace Outline

mutual

/-- The lines below a root, where `indent` stands before each. -/
def branchLines (indent : Text) : List Outline → List Text
  | [] => []
  | [c] => (indent ++ "└─ " ++ c.label) :: childLines (indent ++ "   ") c
  | c :: rest =>
    ((indent ++ "├─ " ++ c.label) :: childLines (indent ++ "│  ") c) ++ branchLines indent rest

/-- The lines below the root of an outline. -/
def childLines (indent : Text) : Outline → List Text
  | node _ cs => branchLines indent cs

end

/-- The outline over several lines. -/
def render (o : Outline) : Text := Text.lines (o.label :: childLines [] o)

end Outline

end ThreeAddress
