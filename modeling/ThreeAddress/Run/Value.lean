import ThreeAddress.Decimal.Binary64
import ThreeAddress.Decimal.Shortest
import ThreeAddress.Syntax.Operator

/-!
# Values

What an expression evaluates to: a number, a text, a truth value, or nothing for a call that ends
without one.  A binary operator other than the lazy ones is a partial function of two values.
-/

namespace ThreeAddress

/-- The kinds of values. -/
inductive ValueKind where
  | void | number | string | boolean
deriving DecidableEq, Repr

/-- The name of a kind. -/
def ValueKind.name : ValueKind → Text
  | void => "void"
  | number => "number"
  | string => "string"
  | boolean => "boolean"

/-- A value. -/
inductive Value where
  | void
  | number (x : Float)
  | string (t : Text)
  | boolean (b : Bool)
deriving Repr, Inhabited

namespace Value

/-- The kind of a value. -/
def kind : Value → ValueKind
  | void => .void
  | number _ => .number
  | string _ => .string
  | boolean _ => .boolean

/-- The value as printed. -/
def shown : Value → Text
  | void => "void"
  | number x => Decimal.ofFloat x
  | string t => t
  | boolean true => "true"
  | boolean false => "false"

/-- Whether a condition with this value holds: a number other than zero, a text that is not empty,
or true. -/
def truthy : Value → Bool
  | void => false
  | number x => x != 0
  | string t => !t.isEmpty
  | boolean b => b

/-- Whether two values are equal; values of different kinds never are. -/
def equal : Value → Value → Bool
  | void, void => true
  | number x, number y => x == y
  | string s, string t => s == t
  | boolean a, boolean b => a == b
  | _, _ => false

/-- How two numbers compare.  Numbers without an order count as equal. -/
def compareNumbers (x y : Float) : Ordering :=
  if x < y then .lt else if y < x then .gt else .eq

/-- How two texts compare, byte by byte. -/
def compareTexts (s t : Text) : Ordering :=
  if s < t then .lt else if t < s then .gt else .eq

end Value

/-- Why an operator has no result. -/
inductive OperatorFault where
  | kinds (op : BinaryOp) (left right : ValueKind)
  | divisionByZero
  | unknown (code : Nat)
deriving DecidableEq, Repr

namespace BinaryOp

/-- Whether a comparison operator holds of an order. -/
def holds : BinaryOp → Ordering → Bool
  | lt, c => c == .lt
  | gt, c => c == .gt
  | le, c => c != .gt
  | ge, c => c != .lt
  | _, _ => false

/-- An operator on numbers. -/
def onNumbers (op : BinaryOp) (x y : Float) : Except OperatorFault Value :=
  match op with
  | add => .ok (.number (x + y))
  | sub => .ok (.number (x - y))
  | mul => .ok (.number (x * y))
  | div => if y == 0 then .error .divisionByZero else .ok (.number (x / y))
  | mod => if y == 0 then .error .divisionByZero else .ok (.number (floatRemainder x y))
  | lt | gt | le | ge => .ok (.boolean (op.holds (Value.compareNumbers x y)))
  | other code => .error (.unknown code)
  | _ => .error (.unknown (all.idxOf op))

/-- An operator on two values.  Every two values can be compared for equality, a text can be joined
with every value, and two texts are ordered; all else needs numbers. -/
def apply (op : BinaryOp) (left right : Value) : Except OperatorFault Value :=
  let kinds : Except OperatorFault Value := .error (.kinds op left.kind right.kind)
  match op, left, right with
  | eq, a, b => .ok (.boolean (a.equal b))
  | ne, a, b => .ok (.boolean !(a.equal b))
  | op, .number x, .number y => op.onNumbers x y
  | add, .string s, b => .ok (.string (s ++ b.shown))
  | add, a, .string t => .ok (.string (a.shown ++ t))
  | op, .string s, .string t =>
    match op with
    | lt | gt | le | ge => .ok (.boolean (op.holds (Value.compareTexts s t)))
    | _ => kinds
  | _, _, _ => kinds

end BinaryOp

end ThreeAddress
