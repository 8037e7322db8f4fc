import ThreeAddress.Json
import ThreeAddress.Syntax.Expr

/-!
# Programs as JSON

Each node is an object with its type, its span, its text, named fields and its children; what is
empty is left out.
-/

namespace ThreeAddress

/-- A span as an object. -/
def Span.json (s : Span) : Json :=
  .object [("File", .nat s.file.toNat), ("Start", .nat s.start.toNat), ("End", .nat s.stop.toNat)]

/-- A node of the document. -/
def Json.treeNode (type : Text) (span : Span) (text : Text) (fields : List (Text × Json))
    (children : List Json) : Json :=
  .record [
    [("type", .string type), ("span", span.json)],
    Json.textField "text" text,
    if fields.isEmpty then [] else [("fields", .object fields)],
    Json.listField "children" children]

namespace Expr

mutual

/-- The node of an expression. -/
def json : Expr → Json
  | ident s name => .treeNode "Ident" s name [] []
  | literal s kind value => .treeNode "Literal" s value [("literal", .string kind.name)] []
  | binary s op left right => .treeNode "Binary" s op.text [] [left.json, right.json]
  | unary s op operand => .treeNode "Unary" s op.text [] [operand.json]
  | call s name _ args => .treeNode "Call" s name [] (jsonAll args)
  | group s inner => .treeNode "Group" s [] [] [inner.json]
  | unknown s _ => .treeNode "Expr(?)" s [] [] []
  | missing _ => .treeNode "Invalid" {} [] [] []

/-- The nodes of expressions. -/
def jsonAll : List Expr → List Json
  | [] => []
  | e :: rest => e.json :: jsonAll rest

end

end Expr

namespace Stmt

mutual

/-- The node of a statement. -/
def json : Stmt → Json
  | letVar s name _ value =>
    .treeNode "VariableDeclaration" s [] [("name", .string name)] [value.json]
  | assign s name _ value => .treeNode "Assignment" s [] [("name", .string name)] [value.json]
  | ifElse s cond thenBody elseBody hasElse =>
    let thenField : Text × Json := ("then", .array (jsonAll thenBody))
    let elseField : Text × Json := ("else", .array (jsonAll elseBody))
    .treeNode "IfStatement" s [] (if hasElse then [elseField, thenField] else [thenField])
      [cond.json]
  | .while s cond body =>
    .treeNode "WhileStatement" s [] [("body", .array (jsonAll body))] [cond.json]
  | function s name _ params body =>
    .treeNode "FunctionDeclaration" s []
      [("name", .string name), ("params", .strings (params.map (·.name)))] (jsonAll body)
  | ret s value => .treeNode "ReturnStatement" s [] [] (value.toList.map Expr.json)
  | print s value => .treeNode "PrintStatement" s [] [] [value.json]
  | expr s value => .treeNode "ExpressionStatement" s [] [] [value.json]
  | unknown s _ => .treeNode "Stmt(?)" s [] [] []
  | missing _ => .treeNode "Invalid" {} [] [] []

/-- The nodes of statements. -/
def jsonAll : List Stmt → List Json
  | [] => []
  | s :: rest => s.json :: jsonAll rest

end

end Stmt

/-- The document of a program. -/
def Tree.json (t : Tree) : Json :=
  .treeNode "Program" t.span [] [] (Stmt.jsonAll t.statements)

end ThreeAddress
