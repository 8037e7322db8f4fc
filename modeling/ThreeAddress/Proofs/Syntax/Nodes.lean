import ThreeAddress.Proofs.Syntax.Arena

/-!
# Nodes and their parts

A node is the program, a statement or an expression.  `Tree.parts` lists the nodes that a node
refers to, `Reachable` are those to which references lead from the program, and `IsTree` says that
the references among them form a tree.
-/

namespace ThreeAddress

namespace ExprForm

/-- The expressions that an expression refers to. -/
def parts : ExprForm → List ExprId
  | ident _ | literal _ _ | unknown _ => []
  | call _ _ args => args
  | binary _ left right => [left, right]
  | unary _ operand => [operand]
  | group inner => [inner]

/-- Where an expression has a name besides its own place. -/
def names : ExprForm → List Span
  | call _ nameSpan _ => [nameSpan]
  | _ => []

/-- The form is of a kind that the language has. -/
def IsKnown (form : ExprForm) : Prop := ∀ code, form ≠ unknown code

end ExprForm

namespace StmtForm

/-- The expressions that a statement refers to; a bare `return` refers to none. -/
def values : StmtForm → List ExprId
  | letVar _ _ value | assign _ _ value | print value | expr value => [value]
  | ifElse cond _ _ _ | .while cond _ => [cond]
  | ret value => if value = 0 then [] else [value]
  | function .. | unknown _ => []

/-- The lists of statements that a statement refers to. -/
def bodies : StmtForm → List (List StmtId)
  | ifElse _ thenBody elseBody _ => [thenBody, elseBody]
  | .while _ body | function _ _ _ body => [body]
  | _ => []

/-- Where the names and parameters of a statement stand. -/
def names : StmtForm → List Span
  | letVar _ nameSpan _ | assign _ nameSpan _ => [nameSpan]
  | function _ nameSpan params _ => nameSpan :: params.map (·.span)
  | _ => []

/-- The form is of a kind that the language has. -/
def IsKnown (form : StmtForm) : Prop := ∀ code, form ≠ unknown code

end StmtForm

/-- A node of a tree. -/
inductive NodeRef where
  | program
  | stmt (id : StmtId)
  | expr (id : ExprId)
deriving DecidableEq, Repr

namespace NodeRef

/-- The order in which nodes are made: expressions before statements, nodes of one arena by their
places, and the program last. -/
def Before : NodeRef → NodeRef → Prop
  | expr c, expr p => c < p
  | expr _, _ => True
  | stmt c, stmt p => c < p
  | stmt _, program => True
  | _, _ => False

theorem Before.irrefl (n : NodeRef) :
  ¬ n.Before n
  := by
  cases n <;> simp [Before]

/-- Nothing comes before infinitely many others. -/
theorem wellFounded_before : WellFounded Before
  := by
  have hexpr : ∀ id, Acc Before (expr id) := by
    intro id
    induction id using Nat.strongRecOn with
    | ind id ih =>
        constructor
        rintro (_ | _ | c) hc
        · cases hc
        · cases hc
        · apply ih c hc
  have hstmt : ∀ id, Acc Before (stmt id) := by
    intro id
    induction id using Nat.strongRecOn with
    | ind id ih =>
        constructor
        rintro (_ | c | c) hc
        · cases hc
        · apply ih c hc
        · apply hexpr
  constructor
  rintro (_ | id | id)
  · constructor
    rintro (_ | c | c) hc
    · cases hc
    · apply hstmt
    · apply hexpr
  · apply hstmt
  · apply hexpr

end NodeRef

/-- The references to an expression's parts. -/
def ExprForm.refs (form : ExprForm) : List NodeRef := form.parts.map .expr

/-- The references to a statement's parts. -/
def StmtForm.refs (form : StmtForm) : List NodeRef :=
  form.values.map .expr ++ form.bodies.flatten.map .stmt

namespace Tree

/-- The lists of statements that a node refers to. -/
def bodies (t : Tree) : NodeRef → List (List StmtId)
  | .program => [t.program]
  | .stmt id => ((t.stmt? id).map (·.form.bodies)).getD []
  | .expr _ => []

/-- The nodes that a node refers to. -/
def parts (t : Tree) : NodeRef → List NodeRef
  | .program => t.program.map .stmt
  | .stmt id => ((t.stmt? id).map (·.form.refs)).getD []
  | .expr id => ((t.expr? id).map (·.form.refs)).getD []

/-- Where a node stands. -/
def place (t : Tree) : NodeRef → Span
  | .program => t.span
  | .stmt id => ((t.stmt? id).map (·.span)).getD {}
  | .expr id => t.exprSpan id

/-- Where the names and parameters of a node stand. -/
def names (t : Tree) : NodeRef → List Span
  | .program => []
  | .stmt id => ((t.stmt? id).map (·.form.names)).getD []
  | .expr id => ((t.expr? id).map (·.form.names)).getD []

/-- The nodes to which references lead from the program. -/
inductive Reachable (t : Tree) : NodeRef → Prop
  | program : Reachable t .program
  | part {p c : NodeRef} (hp : Reachable t p) (hc : c ∈ t.parts p) : Reachable t c

/-! ### Trees -/

/-- The reachable nodes form a tree: each reference leads to a node of a known kind whose content is
found if it is asked for as one of this kind and of no other, parts come before the node that they
are parts of, and no node is a part twice. -/
structure IsTree (t : Tree) : Prop where
  expr_resolves : ∀ id, t.Reachable (.expr id) → ∃ node, t.expr? id = some node
    ∧ node.form.IsKnown
    ∧ ∀ kind, t.exprs.content? kind id
      = if node.form.kindNumber = kind then some node.form else none
  stmt_resolves : ∀ id, t.Reachable (.stmt id) → ∃ node, t.stmt? id = some node
    ∧ node.form.IsKnown
    ∧ ∀ kind, t.stmts.content? kind id
      = if node.form.kindNumber = kind then some node.form else none
  expr_lt : ∀ p c, t.Reachable (.expr p) → .expr c ∈ t.parts (.expr p) → c < p
  stmt_lt : ∀ p c, t.Reachable (.stmt p) → .stmt c ∈ t.parts (.stmt p) → c < p
  parts_nodup : ∀ p, t.Reachable p → (t.parts p).Nodup
  parent_unique : ∀ p q c, t.Reachable p → t.Reachable q → c ∈ t.parts p → c ∈ t.parts q → p = q
  wellFounded : WellFounded fun c p => t.Reachable p ∧ c ∈ t.parts p

end Tree

end ThreeAddress
