import ThreeAddress.Syntax.Operator

/-!
# Syntax trees in arenas

The nodes of a tree are kept in two arenas, one of expressions and one of statements, and refer to
one another by identifiers.  Identifiers count from one, and `0` stands for no node.

An entry of an arena says of what kind a node is and where it stands.  What else there is to the
node, its content, is kept with the contents of the other nodes of its kind, and the entry has the
number of the content among these.  A node of a kind that the language does not have has no content
but its code.
-/

namespace ThreeAddress

/-- The place of an expression in its arena, counted from one. -/
abbrev ExprId := Nat

/-- The place of a statement in its arena, counted from one. -/
abbrev StmtId := Nat

/-- An expression whose operands are identifiers. -/
inductive ExprForm where
  | ident (name : Text)
  | literal (kind : LiteralKind) (value : Text)
  | call (name : Text) (nameSpan : Span) (args : List ExprId)
  | binary (op : BinaryOp) (left right : ExprId)
  | unary (op : UnaryOp) (operand : ExprId)
  | group (inner : ExprId)
  | unknown (code : Nat)
deriving DecidableEq, Repr, Inhabited

/-- A parameter of a function. -/
structure Param where
  name : Text
  span : Span
deriving DecidableEq, Repr, Inhabited

/-- A statement whose parts are identifiers. -/
inductive StmtForm where
  | letVar (name : Text) (nameSpan : Span) (value : ExprId)
  | assign (name : Text) (nameSpan : Span) (value : ExprId)
  | ifElse (cond : ExprId) (thenBody elseBody : List StmtId) (hasElse : Bool)
  | while (cond : ExprId) (body : List StmtId)
  | function (name : Text) (nameSpan : Span) (params : List Param) (body : List StmtId)
  | ret (value : ExprId)
  | print (value : ExprId)
  | expr (value : ExprId)
  | unknown (code : Nat)
deriving DecidableEq, Repr, Inhabited

namespace ExprForm

/-- The number of a form's kind. -/
def kindNumber : ExprForm → Nat
  | ident _ => 0
  | literal _ _ => 1
  | call _ _ _ => 2
  | binary _ _ _ => 3
  | unary _ _ => 4
  | group _ => 5
  | unknown code => code

/-- The short name of each kind of expression, in the order of the arenas. -/
def kinds : List (String × Nat) :=
  [("ident", 0), ("lit", 1), ("bin", 3), ("un", 4), ("call", 2), ("group", 5)]

end ExprForm

namespace StmtForm

/-- The number of a form's kind. -/
def kindNumber : StmtForm → Nat
  | letVar _ _ _ => 0
  | assign _ _ _ => 1
  | ifElse _ _ _ _ => 2
  | .while _ _ => 3
  | function _ _ _ _ => 4
  | ret _ => 5
  | print _ => 6
  | expr _ => 7
  | unknown code => code

/-- The short name of each kind of statement. -/
def kinds : List (String × Nat) :=
  [("let", 0), ("assign", 1), ("if", 2), ("while", 3), ("function", 4), ("return", 5),
    ("print", 6), ("expr", 7)]

end StmtForm

/-- An entry of an arena. -/
structure Entry where
  kind : Nat
  span : Span
  payload : Nat
deriving DecidableEq, Repr, Inhabited

/-- A node, as it is read from an arena. -/
structure Node (Form : Type) where
  span : Span
  form : Form
deriving DecidableEq, Repr, Inhabited

/-- What is in an array under an identifier counted from one. -/
def slot? {α : Type} (array : Array α) : Nat → Option α
  | 0 => none
  | n + 1 => array[n]?

/-- The entries of nodes and, for each of the kinds that they can have, the contents of the nodes of
this kind. -/
structure Arena (Form : Type) (kinds : Nat) where
  entries : Array Entry := #[]
  contents : Vector (Array Form) kinds := .replicate kinds #[]
deriving Repr, Inhabited

namespace Arena

variable {Form : Type} {kinds : Nat}

/-- The number of nodes. -/
def size (a : Arena Form kinds) : Nat := a.entries.size

/-- The contents of the nodes of a kind. -/
def contentsOf (a : Arena Form kinds) (kind : Nat) : Array Form := a.contents[kind]?.getD #[]

/-- Adds an entry. -/
def addEntry (a : Arena Form kinds) (kind : Nat) (span : Span) (payload : Nat) :
    Arena Form kinds × Nat :=
  ({ a with entries := a.entries.push ⟨kind, span, payload⟩ }, a.size + 1)

/-- Adds a node: its content to those of its kind, and an entry with the number of the content. -/
def add (a : Arena Form kinds) (kind : Nat) (span : Span) (form : Form) : Arena Form kinds × Nat :=
  let own := (a.contentsOf kind).push form
  { a with contents := a.contents.setIfInBounds kind own }.addEntry kind span own.size

/-- The content of a node, asked for as one of the given kind. -/
def content? (a : Arena Form kinds) (kind id : Nat) : Option Form :=
  (slot? a.entries id).bind fun e =>
    if e.kind = kind then slot? (a.contentsOf kind) e.payload else none

/-- The node under an identifier; a node of a kind without contents is `unknown` but for its
code. -/
def node? (a : Arena Form kinds) (unknown : Nat → Form) (id : Nat) : Option (Node Form) :=
  (slot? a.entries id).bind fun e =>
    if e.kind < kinds then (a.content? e.kind id).map (⟨e.span, ·⟩)
    else some ⟨e.span, unknown e.kind⟩

/-- Those of the named kinds that a node is of. -/
def kindsOf (a : Arena Form kinds) (named : List (String × Nat)) (id : Nat) : List String :=
  (named.filter fun (_, k) => (slot? a.entries id).any (·.kind == k)).map (·.1)

end Arena

/-- A node of the expression arena. -/
abbrev ExprNode := Node ExprForm

/-- A node of the statement arena. -/
abbrev StmtNode := Node StmtForm

/-- The nodes of a program and its top-level statements. -/
structure Tree where
  exprs : Arena ExprForm 6 := {}
  stmts : Arena StmtForm 8 := {}
  span : Span := {}
  program : List StmtId := []
deriving Repr, Inhabited

namespace Tree

/-- The expression of an identifier. -/
def expr? (t : Tree) (id : ExprId) : Option ExprNode := t.exprs.node? .unknown id

/-- The statement of an identifier. -/
def stmt? (t : Tree) (id : StmtId) : Option StmtNode := t.stmts.node? .unknown id

/-- Adds an expression. -/
def addExpr (t : Tree) (span : Span) (form : ExprForm) : Tree × ExprId :=
  let (exprs, id) := t.exprs.add form.kindNumber span form
  ({ t with exprs }, id)

/-- Adds a statement. -/
def addStmt (t : Tree) (span : Span) (form : StmtForm) : Tree × StmtId :=
  let (stmts, id) := t.stmts.add form.kindNumber span form
  ({ t with stmts }, id)

/-- The span of an expression, empty if there is no such expression. -/
def exprSpan (t : Tree) (id : ExprId) : Span := ((slot? t.exprs.entries id).map (·.span)).getD {}

/-- The sizes of the arenas: statements, expressions, then the contents of the expressions of each
kind. -/
def arenaSizes (t : Tree) : List Nat :=
  t.stmts.size :: t.exprs.size :: ExprForm.kinds.map fun (_, k) => (t.exprs.contentsOf k).size

/-- The kinds that the expression of an identifier belongs to, by name. -/
def exprKinds (t : Tree) (id : ExprId) : List String := t.exprs.kindsOf ExprForm.kinds id

/-- The kinds that the statement of an identifier belongs to, by name. -/
def stmtKinds (t : Tree) (id : StmtId) : List String := t.stmts.kindsOf StmtForm.kinds id

/-- Adds an entry for an expression with the `n`-th content of the given kind. -/
def addExprAlias (t : Tree) (span : Span) (kind n : Nat) : Tree × ExprId :=
  let (exprs, id) := t.exprs.addEntry kind span n
  ({ t with exprs }, id)

/-- Adds an entry for a statement with the `n`-th content of the given kind. -/
def addStmtAlias (t : Tree) (span : Span) (kind n : Nat) : Tree × StmtId :=
  let (stmts, id) := t.stmts.addEntry kind span n
  ({ t with stmts }, id)

end Tree

end ThreeAddress
