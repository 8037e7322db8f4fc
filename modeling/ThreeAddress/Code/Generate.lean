import ThreeAddress.Code.Instr
import ThreeAddress.Syntax.Malformed
import ThreeAddress.Diagnostic.Basic
import ThreeAddress.Symbol.Table

/-!
# Generating code

A program is lowered statement by statement.  An expression yields the operand that holds its
value, after the instructions that compute it.  Temporaries and labels are numbered from zero.
Declarations go into a symbol table; a scope that a function opens is left again, also when the
generation of its body fails.
-/

namespace ThreeAddress

/-- Why no code is generated, and where. -/
inductive GenError where
  | redeclared (cause : SymbolError) (span : Span)
  | malformed (node : MalformedNode) (span : Span)
deriving DecidableEq, Repr

namespace GenError

/-- The code of the finding. -/
def code : GenError → Code
  | redeclared (.redeclaredFunction _) _ => .redeclaredFunction
  | redeclared _ _ => .redeclaredVariable
  | malformed _ _ => .malformedNode

/-- The place of the finding. -/
def span : GenError → Span
  | redeclared _ s | malformed _ s => s

/-- The wording of the finding. -/
def message : GenError → Text
  | redeclared cause _ => cause.message
  | malformed node _ => node.message

/-- Whether a name was declared twice. -/
def isRedeclaration : GenError → Bool
  | redeclared cause _ => cause.isRedeclaration
  | malformed _ _ => false

end GenError

/-- The code so far, the symbol table and the numbers of the next temporary and label. -/
structure GenState where
  code : Array Instr := #[]
  table : SymbolTable := {}
  temps : Nat := 0
  labels : Nat := 0
deriving Repr, Inhabited

/-- A step of generation: it may fail, and keeps its state if it does. -/
abbrev Gen := ExceptT GenError (StateM GenState)

namespace Gen

/-- Appends an instruction. -/
def emit (i : Instr) : Gen Unit := modify fun s => { s with code := s.code.push i }

/-- A new temporary. -/
def newTemp : Gen Operand :=
  modifyGet fun s => (.ofTemp s.temps, { s with temps := s.temps + 1 })

/-- A new label. -/
def newLabel : Gen Text :=
  modifyGet fun s => ("L" ++ Text.ofNat s.labels, { s with labels := s.labels + 1 })

/-- Changes the table, or fails with the name declared at `span`. -/
def declare (span : Span) (f : SymbolTable → Except SymbolError SymbolTable) : Gen Unit := do
  match f (← get).table with
  | .ok table => modify fun s => { s with table }
  | .error e => throw (.redeclared e span)

/-- Runs `body` in a scope of its own. -/
def inScope (body : Gen Unit) : Gen Unit := fun s =>
  let (r, s') := body { s with table := s.table.enterScope }
  (r, { s' with table := s'.table.exitScope })

end Gen

namespace Expr

mutual

/-- Generates an expression and yields the operand that holds its value. -/
def generate : Expr → Gen Operand
  | literal span (.other _) _ => throw (.malformed .literalKind span)
  | literal _ kind value => return .literal kind value
  | ident _ name => return .var name
  | group _ inner => inner.generate
  | binary span (.other code) _ _ => throw (.malformed (.binaryOp code) span)
  | binary _ op left right => do
    let l ← left.generate
    let r ← right.generate
    let t ← Gen.newTemp
    Gen.emit { kind := .binary op, target := t, left := l, right := r }
    return t
  | unary span (.other code) _ => throw (.malformed (.unaryOp code) span)
  | unary _ op operand => do
    let x ← operand.generate
    let t ← Gen.newTemp
    Gen.emit { kind := .unary op, target := t, source := x }
    return t
  | call _ name _ args => do
    let xs ← generateArgs args
    let t ← Gen.newTemp
    Gen.emit { kind := .call, target := t, func := name, args := xs }
    return t
  | unknown span _ => throw (.malformed .expressionKind span)
  | missing id => throw (.malformed (.noExpression id) {})

/-- Generates arguments from left to right. -/
def generateArgs : List Expr → Gen (List Operand)
  | [] => return []
  | e :: rest => do
    let x ← e.generate
    let xs ← generateArgs rest
    return x :: xs

end

/-- The type a variable gets from its initial value: that of a literal, the known type of a
variable, a number otherwise. -/
def initialType (t : SymbolTable) : Expr → DataType
  | literal _ .string _ => .string
  | literal _ .boolean _ => .boolean
  | ident _ name =>
    match t.lookup name with
    | some s => if s.isFunction then .number else s.type
    | none => .number
  | _ => .number

end Expr

namespace Stmt

mutual

/-- Generates a statement. -/
def generate : Stmt → Gen Unit
  | letVar _ name nameSpan value => do
    let x ← value.generate
    Gen.declare nameSpan fun t => t.declareVariable name (value.initialType t)
    Gen.emit { kind := .assign, target := .var name, source := x }
  | assign _ name _ value => do
    let x ← value.generate
    Gen.emit { kind := .assign, target := .var name, source := x }
  | ifElse _ cond thenBody elseBody hasElse => do
    let c ← cond.generate
    let elseLabel ← Gen.newLabel
    let endLabel ← Gen.newLabel
    Gen.emit { kind := .jumpIfFalse, cond := c, label := elseLabel }
    generateAll thenBody
    Gen.emit { kind := .jump, label := endLabel }
    Gen.emit { kind := .label, label := elseLabel }
    if hasElse then generateAll elseBody
    Gen.emit { kind := .label, label := endLabel }
  | .while _ cond body => do
    let startLabel ← Gen.newLabel
    let endLabel ← Gen.newLabel
    Gen.emit { kind := .label, label := startLabel }
    let c ← cond.generate
    Gen.emit { kind := .jumpIfFalse, cond := c, label := endLabel }
    generateAll body
    Gen.emit { kind := .jump, label := startLabel }
    Gen.emit { kind := .label, label := endLabel }
  | function _ name nameSpan params body => do
    Gen.declare nameSpan fun t =>
      t.declareFunction name .number (params.map fun _ => DataType.number)
    Gen.emit { kind := .functionStart, func := name, params := params.map (·.name) }
    Gen.inScope do
      params.forM fun p => Gen.declare p.span fun t => t.declareVariable p.name .number
      generateAll body
      Gen.emit { kind := .functionEnd }
  | ret _ none => Gen.emit { kind := .ret }
  | ret _ (some value) => do
    let x ← value.generate
    Gen.emit { kind := .ret, source := x, hasValue := true }
  | print _ value => do
    let x ← value.generate
    Gen.emit { kind := .print, source := x }
  | expr _ value => do
    let _ ← value.generate
  | unknown span _ => throw (.malformed .statementKind span)
  | missing id => throw (.malformed (.noStatement id) {})

/-- Generates statements one after another. -/
def generateAll : List Stmt → Gen Unit
  | [] => return
  | s :: rest => do
    s.generate
    generateAll rest

end

end Stmt

/-- Generates a program from its statements and a starting table.  The table is returned also on
failure. -/
def generate (program : List Stmt) (table : SymbolTable) :
    Except GenError Program × SymbolTable :=
  let (r, s) := (Stmt.generateAll program).run { table }
  (r.map fun _ => s.code.toList, s.table)

end ThreeAddress
