import ThreeAddress.Syntax.Tree

/-!
# Nested syntax

The same programs with their parts nested instead of referred to.  `Tree.expr` and `Tree.stmt`
read a node of a tree with everything below it; an identifier without a node becomes `missing`.
Printing, code generation and evaluation recurse on the nested form.
-/

namespace ThreeAddress

/-- An expression. -/
inductive Expr where
  | ident (span : Span) (name : Text)
  | literal (span : Span) (kind : LiteralKind) (value : Text)
  | call (span : Span) (name : Text) (nameSpan : Span) (args : List Expr)
  | binary (span : Span) (op : BinaryOp) (left right : Expr)
  | unary (span : Span) (op : UnaryOp) (operand : Expr)
  | group (span : Span) (inner : Expr)
  | unknown (span : Span) (code : Nat)
  | missing (id : ExprId)
deriving Repr, Inhabited

/-- A statement. -/
inductive Stmt where
  | letVar (span : Span) (name : Text) (nameSpan : Span) (value : Expr)
  | assign (span : Span) (name : Text) (nameSpan : Span) (value : Expr)
  | ifElse (span : Span) (cond : Expr) (thenBody elseBody : List Stmt) (hasElse : Bool)
  | while (span : Span) (cond : Expr) (body : List Stmt)
  | function (span : Span) (name : Text) (nameSpan : Span) (params : List Param)
      (body : List Stmt)
  | ret (span : Span) (value : Option Expr)
  | print (span : Span) (value : Expr)
  | expr (span : Span) (value : Expr)
  | unknown (span : Span) (code : Nat)
  | missing (id : StmtId)
deriving Repr, Inhabited

namespace Expr

/-- The span of an expression. -/
def span : Expr → Span
  | ident s _ | literal s _ _ | call s _ _ _ | binary s _ _ _ | unary s _ _ | group s _
  | unknown s _ => s
  | missing _ => {}

/-- The name of an expression's kind. -/
def kindName : Expr → Text
  | ident .. => "Ident"
  | literal .. => "Literal"
  | call .. => "Call"
  | binary .. => "Binary"
  | unary .. => "Unary"
  | group .. => "Group"
  | _ => "Expr(?)"

end Expr

namespace Stmt

/-- The span of a statement. -/
def span : Stmt → Span
  | letVar s .. | assign s .. | ifElse s .. | .while s .. | function s .. | ret s .. | print s ..
  | expr s .. | unknown s .. => s
  | missing _ => {}

/-- The name of a statement's kind. -/
def kindName : Stmt → Text
  | letVar .. => "VariableDeclaration"
  | assign .. => "Assignment"
  | ifElse .. => "IfStatement"
  | .while .. => "WhileStatement"
  | function .. => "FunctionDeclaration"
  | ret .. => "ReturnStatement"
  | print .. => "PrintStatement"
  | expr .. => "ExpressionStatement"
  | _ => "Stmt(?)"

end Stmt

namespace Tree

/-- Reads an expression, at most `depth` nodes deep. -/
def exprTo (t : Tree) : (depth : Nat) → ExprId → Expr
  | 0, id => .missing id
  | depth + 1, id =>
    match t.expr? id with
    | none => .missing id
    | some ⟨span, form⟩ =>
      match form with
      | .ident name => .ident span name
      | .literal kind value => .literal span kind value
      | .call name nameSpan args => .call span name nameSpan (args.map (t.exprTo depth))
      | .binary op left right => .binary span op (t.exprTo depth left) (t.exprTo depth right)
      | .unary op operand => .unary span op (t.exprTo depth operand)
      | .group inner => .group span (t.exprTo depth inner)
      | .unknown code => .unknown span code

/-- Reads an expression; no chain of nodes without repetition is longer than the arena. -/
def expr (t : Tree) (id : ExprId) : Expr := t.exprTo (t.exprs.size + 1) id

/-- Reads a statement, at most `depth` statements deep. -/
def stmtTo (t : Tree) : (depth : Nat) → StmtId → Stmt
  | 0, id => .missing id
  | depth + 1, id =>
    match t.stmt? id with
    | none => .missing id
    | some ⟨span, form⟩ =>
      match form with
      | .letVar name nameSpan value => .letVar span name nameSpan (t.expr value)
      | .assign name nameSpan value => .assign span name nameSpan (t.expr value)
      | .ifElse cond thenBody elseBody hasElse =>
        .ifElse span (t.expr cond) (thenBody.map (t.stmtTo depth)) (elseBody.map (t.stmtTo depth))
          hasElse
      | .while cond body => .while span (t.expr cond) (body.map (t.stmtTo depth))
      | .function name nameSpan params body =>
        .function span name nameSpan params (body.map (t.stmtTo depth))
      | .ret value => .ret span (if value = 0 then none else some (t.expr value))
      | .print value => .print span (t.expr value)
      | .expr value => .expr span (t.expr value)
      | .unknown code => .unknown span code

/-- Reads a statement. -/
def stmt (t : Tree) (id : StmtId) : Stmt := t.stmtTo (t.stmts.size + 1) id

/-- The top-level statements. -/
def statements (t : Tree) : List Stmt := t.program.map t.stmt

end Tree

end ThreeAddress
