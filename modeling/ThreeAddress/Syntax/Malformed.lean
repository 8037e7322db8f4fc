import ThreeAddress.Syntax.Expr

/-!
# Malformed nodes

The nodes of a tree that have no meaning: identifiers without a node, and kinds, operators and
literals that the language does not have.
-/

namespace ThreeAddress

/-- A node without meaning. -/
inductive MalformedNode where
  | noStatement (id : StmtId)
  | noExpression (id : ExprId)
  | statementKind
  | expressionKind
  | literalKind
  | binaryOp (code : Nat)
  | unaryOp (code : Nat)
deriving DecidableEq, Repr

namespace MalformedNode

/-- The wording of the finding. -/
def message : MalformedNode → Text
  | noStatement id => "invalid statement node " ++ Text.ofNat id
  | noExpression id => "invalid expression node " ++ Text.ofNat id
  | statementKind => "unrecognized statement kind Stmt(?)"
  | expressionKind => "unrecognized expression kind Expr(?)"
  | literalKind => "unrecognized literal kind ?"
  | binaryOp code => "unrecognized binary operator " ++ Text.ofNat code
  | unaryOp code => "unrecognized unary operator " ++ Text.ofNat code

end MalformedNode

end ThreeAddress
