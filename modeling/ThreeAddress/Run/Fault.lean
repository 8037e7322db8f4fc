import ThreeAddress.Diagnostic.Basic
import ThreeAddress.Run.Value
import ThreeAddress.Source.FileSet
import ThreeAddress.Syntax.Malformed
import ThreeAddress.Text.Quoted

/-!
# Runtime faults

Why a run ends early, where, and inside which calls.  Every cause has a number of its own; causes
that users meet also have a diagnostic code.
-/

namespace ThreeAddress

/-- The cause of a fault. -/
inductive FaultCause where
  | divisionByZero
  | undefinedVariable (name : Text)
  | undefinedFunction (name : Text)
  | arity (name : Text) (want got : Nat)
  | kinds (op : BinaryOp) (left right : ValueKind)
  | negation (kind : ValueKind)
  | stepLimit (limit : Nat)
  | stackOverflow (limit : Nat)
  | cancelled
  | badNumber (digits : Text)
  | malformed (node : MalformedNode)
deriving DecidableEq, Repr

namespace FaultCause

/-- The cause of an operator without a result. -/
def ofOperator : OperatorFault → FaultCause
  | .kinds op left right => kinds op left right
  | .divisionByZero => divisionByZero
  | .unknown code => malformed (.binaryOp code)

/-- The number of a cause. -/
def number : FaultCause → Nat
  | divisionByZero => 1001
  | undefinedVariable _ => 1002
  | undefinedFunction _ => 1003
  | arity .. => 1004
  | kinds .. | negation _ => 1005
  | stepLimit _ => 1006
  | stackOverflow _ => 1007
  | cancelled => 1008
  | badNumber _ | malformed _ => 1999

/-- The name of a cause. -/
def id (c : FaultCause) : Text := "RT" ++ Text.ofNat c.number

/-- The diagnostic code of a cause. -/
def code : FaultCause → Code
  | divisionByZero => .divisionByZero
  | undefinedVariable _ => .undefinedVariable
  | undefinedFunction _ => .undefinedFunction
  | arity .. => .wrongArity
  | kinds .. | negation _ => .typeMismatch
  | stepLimit _ => .stepLimit
  | stackOverflow _ => .stackOverflow
  | cancelled => .cancelled
  | badNumber _ | malformed _ => .unknown

/-- The wording of a cause. -/
def message : FaultCause → Text
  | divisionByZero => "division by zero"
  | undefinedVariable name => "undefined variable: " ++ name
  | undefinedFunction name => "undefined function: " ++ name
  | arity name want got =>
    name ++ " expects " ++ Text.ofNat want ++ " arguments, got " ++ Text.ofNat got
  | kinds op left right =>
    "operator " ++ op.text ++ " is not defined for " ++ left.name ++ " and " ++ right.name
  | negation kind => "cannot negate " ++ kind.name
  | stepLimit limit => "step limit of " ++ Text.ofNat limit ++ " exceeded"
  | stackOverflow limit => "call depth of " ++ Text.ofNat limit ++ " exceeded"
  | cancelled => "execution cancelled"
  | badNumber digits => "bad number literal " ++ Text.quoted digits
  | malformed node => node.message

/-- What lies behind a cause, if something else does. -/
def underlying? : FaultCause → Option Text
  | cancelled => some "context canceled"
  | _ => none

end FaultCause

/-- A call that was under way. -/
structure CallSite where
  func : Text
  span : Span
deriving DecidableEq, Repr

/-- A fault, with the calls under way, innermost first. -/
structure Fault where
  cause : FaultCause
  span : Span
  backtrace : List CallSite := []
deriving DecidableEq, Repr

namespace Fault

/-- The fault on one line. -/
def message (f : Fault) : Text := "runtime error " ++ f.cause.id ++ ": " ++ f.cause.message

/-- A place in a file. -/
def place (files : Option FileSet) (span : Span) : Text :=
  let found := do
    let fs ← if span.start = 0 ∧ span.stop = 0 then none else files
    let file ← fs.get? span.file
    let (start, _) ← fs.resolve? span
    return file.path ++ ":" ++ Text.ofNat start.line.toNat ++ ":" ++ Text.ofNat start.column.toNat
  found.getD "<no-span>"

/-- The fault with its place and the calls under way. -/
def report (f : Fault) (files : Option FileSet) : Text :=
  Text.lines <| List.flatten [
    [f.message, "at " ++ place files f.span],
    if f.backtrace.isEmpty then [] else ["backtrace:"],
    f.backtrace.zipIdx.map fun (c, n) =>
      "  " ++ Text.ofNat n ++ ": " ++ c.func ++ " at " ++ place files c.span]

end Fault

end ThreeAddress
