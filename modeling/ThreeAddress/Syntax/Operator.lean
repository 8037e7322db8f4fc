import ThreeAddress.Token.Basic

/-!
# Operators and literals

The operators of the language with their spelling and precedence, and the kinds of literals.  A
tree put together by hand may carry a code that is no operator; `other` keeps it.
-/

namespace ThreeAddress

/-- The operators with two operands. -/
inductive BinaryOp where
  | add | sub | mul | div | mod | eq | ne | lt | gt | le | ge | and | or
  | other (code : Nat)
deriving DecidableEq, Repr, Inhabited

namespace BinaryOp

/-- The operators, in the order of their numbers. -/
def all : List BinaryOp := [add, sub, mul, div, mod, eq, ne, lt, gt, le, ge, and, or]

/-- The operator of a number. -/
def ofNumber (n : Nat) : BinaryOp := (all[n]?).getD (other n)

/-- The operator as written. -/
def text : BinaryOp → Text
  | add => "+"
  | sub => "-"
  | mul => "*"
  | div => "/"
  | mod => "%"
  | eq => "=="
  | ne => "!="
  | lt => "<"
  | gt => ">"
  | le => "<="
  | ge => ">="
  | and => "&&"
  | or => "||"
  | other _ => "?"

/-- The operator that a token stands for. -/
def ofToken? : TokenKind → Option BinaryOp
  | .plus => some add
  | .minus => some sub
  | .star => some mul
  | .slash => some div
  | .percent => some mod
  | .eqEq => some eq
  | .bangEq => some ne
  | .lt => some lt
  | .gt => some gt
  | .ltEq => some le
  | .gtEq => some ge
  | .andAnd => some and
  | .orOr => some or
  | _ => none

/-- How strongly an operator binds, from `||` up to the multiplicative ones. -/
def precedence : BinaryOp → Nat
  | or => 1
  | and => 2
  | eq | ne => 3
  | lt | gt | le | ge => 4
  | add | sub => 5
  | mul | div | mod => 6
  | other _ => 0

end BinaryOp

/-- The operators with one operand. -/
inductive UnaryOp where
  | not | neg
  | other (code : Nat)
deriving DecidableEq, Repr, Inhabited

namespace UnaryOp

/-- The operator of a number. -/
def ofNumber : Nat → UnaryOp
  | 0 => not
  | 1 => neg
  | n => other n

/-- The operator as written. -/
def text : UnaryOp → Text
  | not => "!"
  | _ => "-"

/-- The operator that a token stands for. -/
def ofToken? : TokenKind → Option UnaryOp
  | .bang => some not
  | .minus => some neg
  | _ => none

end UnaryOp

/-- The kinds of literals. -/
inductive LiteralKind where
  | number | string | boolean
  | other (code : Nat)
deriving DecidableEq, Repr, Inhabited

namespace LiteralKind

/-- The kind of a number. -/
def ofNumber : Nat → LiteralKind
  | 0 => number
  | 1 => string
  | 2 => boolean
  | n => other n

/-- The number of a kind. -/
def toNumber : LiteralKind → Nat
  | number => 0
  | string => 1
  | boolean => 2
  | other n => n

/-- The name of a kind. -/
def name : LiteralKind → Text
  | number => "number"
  | string => "string"
  | boolean => "boolean"
  | other _ => "?"

end LiteralKind

end ThreeAddress
