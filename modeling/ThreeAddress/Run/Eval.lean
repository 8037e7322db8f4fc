import ThreeAddress.Decimal.Read
import ThreeAddress.Run.State

/-!
# Running programs

Statements are run one after another, without going through three-address code.  Every statement
and every round of a loop counts as a step.  No program runs forever: a loop ends at the step limit
at the latest, and a chain of calls at the depth limit.

Evaluation recurses on the nested syntax.  What it does for a call is a parameter, `deeper`: how a
body is run one level further down, or nothing at the deepest level.  `runBody` ties the knot by
recursion on the levels left.
-/

namespace ThreeAddress

/-- How a run leaves a statement: it goes on, or returns from the call with a value. -/
inductive Signal where
  | next
  | returned (v : Value)
deriving Repr

/-- How the body of a function is run one level down; there may be no level left. -/
abbrev Deeper := Option (List Stmt → Run Signal)

/-- Drops a quote at each end. -/
def unquote (t : Text) : Text :=
  let t := (Text.dropLeading? "\"" t).getD t
  if t.getLast? = some 34 then t.dropLast else t

/-- The value of a literal. -/
def literalValue (span : Span) (kind : LiteralKind) (text : Text) : Run Value :=
  match kind with
  | .number =>
    match Decimal.read text with
    | .ok x => return .number x
    | .error _ => Run.fail (.badNumber text) span
  | .string => return .string (unquote text)
  | .boolean => return .boolean (text == "true")
  | .other _ => Run.fail (.malformed .literalKind) span

/-- The value of a unary operator. -/
def unaryValue (span : Span) (op : UnaryOp) (v : Value) : Run Value :=
  match op, v with
  | .not, v => return .boolean !v.truthy
  | .neg, .number x => return .number (-x)
  | .neg, v => Run.fail (.negation v.kind) span
  | .other code, _ => Run.fail (.malformed (.unaryOp code)) span

/-- The value of a binary operator that is not lazy. -/
def binaryValue (span : Span) (op : BinaryOp) (left right : Value) : Run Value :=
  match op.apply left right with
  | .ok v => return v
  | .error e => Run.fail (.ofOperator e) span

/-- Finds a function for a call: it must exist, take as many arguments, and be allowed to run. -/
def findFunction (limits : RunLimits) (deeper : Deeper) (span : Span) (name : Text)
    (nameSpan : Span) (args : Nat) : Run (FunctionBody × (List Stmt → Run Signal)) := do
  match (← get).functions.get? name with
  | none => Run.fail (.undefinedFunction name) nameSpan
  | some f =>
    if f.params.length ≠ args then Run.fail (.arity name f.params.length args) span
    else match deeper with
      | none => Run.fail (.stackOverflow limits.depth) span
      | some run => return (f, run)

/-- Calls a function with values for its parameters. -/
def callFunction (run : List Stmt → Run Signal) (f : FunctionBody) (site : CallSite)
    (args : List Value) : Run Value := do
  match ← Run.inFrame ⟨site, .ofList (f.params.zip args)⟩ (run f.body) with
  | .next => return .void
  | .returned v => return v

namespace Expr

mutual

/-- Evaluates an expression; operands are evaluated from left to right. -/
def eval (limits : RunLimits) (deeper : Deeper) : Expr → Run Value
  | literal span kind text => literalValue span kind text
  | ident span name => do
    match (← get).lookup name with
    | some v => return v
    | none => Run.fail (.undefinedVariable name) span
  | group _ inner => inner.eval limits deeper
  | unary span op operand => do
    let v ← operand.eval limits deeper
    unaryValue span op v
  | binary _ .and left right => do
    let l ← left.eval limits deeper
    if l.truthy then
      let r ← right.eval limits deeper
      return .boolean r.truthy
    else return .boolean false
  | binary _ .or left right => do
    let l ← left.eval limits deeper
    if l.truthy then return .boolean true
    else
      let r ← right.eval limits deeper
      return .boolean r.truthy
  | binary span op left right => do
    let l ← left.eval limits deeper
    let r ← right.eval limits deeper
    binaryValue span op l r
  | call span name nameSpan args => do
    let (f, run) ← findFunction limits deeper span name nameSpan args.length
    let vs ← evalAll limits deeper args
    callFunction run f ⟨name, span⟩ vs
  | unknown span _ => Run.fail (.malformed .expressionKind) span
  | missing id => Run.fail (.malformed (.noExpression id)) {}

/-- Evaluates arguments from left to right. -/
def evalAll (limits : RunLimits) (deeper : Deeper) : List Expr → Run (List Value)
  | [] => return []
  | e :: rest => do
    let v ← e.eval limits deeper
    let vs ← evalAll limits deeper rest
    return v :: vs

end

end Expr

/-- Runs a loop for at most `rounds` rounds.  Every round counts a step, so a run that may still
take `n` steps does not begin its round `n + 2`. -/
def runLoop (limits : RunLimits) (span : Span) (test : Run Value) (body : Run Signal) :
    (rounds : Nat) → Run Signal
  | 0 => Run.fail (.stepLimit limits.steps) span
  | rounds + 1 => do
    let c ← test
    if c.truthy then
      match ← body with
      | .returned v => return .returned v
      | .next =>
        Run.tick limits span
        runLoop limits span test body rounds
    else return .next

namespace Stmt

mutual

/-- Runs a statement.  Outside of calls a return prints its value and the run goes on. -/
def exec (limits : RunLimits) (deeper : Deeper) : Stmt → Run Signal
  | letVar span name _ value => do
    Run.tick limits span
    let v ← value.eval limits deeper
    modify (·.define name v)
    return .next
  | assign span name nameSpan value => do
    Run.tick limits span
    let v ← value.eval limits deeper
    match (← get).assign name v with
    | some s => set s; return .next
    | none => Run.fail (.undefinedVariable name) nameSpan
  | ifElse span cond thenBody elseBody hasElse => do
    Run.tick limits span
    let c ← cond.eval limits deeper
    if c.truthy then execAll limits deeper thenBody
    else if hasElse then execAll limits deeper elseBody
    else return .next
  | .while span cond body => do
    Run.tick limits span
    let left := limits.steps - (← get).stats.steps
    runLoop limits span (cond.eval limits deeper) (execAll limits deeper body) (left + 1)
  | function span name _ params body => do
    Run.tick limits span
    modify fun s => { s with functions := s.functions.insert name ⟨params.map (·.name), body⟩ }
    return .next
  | ret span none => do
    Run.tick limits span
    if (← get).frames.isEmpty then return .next else return .returned .void
  | ret span (some value) => do
    Run.tick limits span
    let v ← value.eval limits deeper
    if (← get).frames.isEmpty then
      Run.printLine ("Return: " ++ v.shown)
      return .next
    else return .returned v
  | print span value => do
    Run.tick limits span
    let v ← value.eval limits deeper
    Run.printLine v.shown
    return .next
  | expr span value => do
    Run.tick limits span
    let _ ← value.eval limits deeper
    return .next
  | unknown span _ => do
    Run.tick limits span
    Run.fail (.malformed .statementKind) span
  | missing id => Run.fail (.malformed (.noStatement id)) {}

/-- Runs statements one after another, until one returns. -/
def execAll (limits : RunLimits) (deeper : Deeper) : List Stmt → Run Signal
  | [] => return .next
  | s :: rest => do
    match ← s.exec limits deeper with
    | .next => execAll limits deeper rest
    | .returned v => return .returned v

end

end Stmt

/-- Runs statements where calls may nest `levels` deep. -/
def runBody (limits : RunLimits) : (levels : Nat) → List Stmt → Run Signal
  | 0, body => Stmt.execAll limits none body
  | levels + 1, body => Stmt.execAll limits (some (runBody limits levels)) body

/-- What a run leaves behind. -/
structure RunResult where
  output : Text
  stats : RunStats
  fault : Option Fault
deriving Repr

/-- Runs a program. -/
def runProgram (limits : RunLimits) (program : List Stmt) : RunResult :=
  let (r, s) := (runBody limits limits.depth program).run {}
  { output := s.output
    stats := s.stats
    fault := match r with
      | .ok _ => none
      | .error f => some f }

end ThreeAddress
