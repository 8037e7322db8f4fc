import ThreeAddress.Source.Span

/-!
# Diagnostics

A diagnostic is a finding about a program: how grave it is, a code that names its kind, the span
it is about, a message and notes about further spans.
-/

namespace ThreeAddress

/-- How grave a finding is. -/
inductive Severity where
  | info | warning | error
  | other (rank : UInt8)
deriving DecidableEq, Repr, Inhabited

namespace Severity

/-- The place of a severity in their order. -/
def rank : Severity → Nat
  | info => 0
  | warning => 1
  | error => 2
  | other n => n.toNat

/-- The severity of a rank. -/
def ofRank (n : Nat) : Severity :=
  match n with
  | 0 => info
  | 1 => warning
  | 2 => error
  | n => other n.toUInt8

/-- The name in upper case. -/
def name : Severity → Text
  | info => "INFO"
  | warning => "WARNING"
  | error => "ERROR"
  | other _ => "UNKNOWN"

/-- The label of one-line reports. -/
def label : Severity → Text
  | error => "error"
  | warning => "warning"
  | _ => "info"

/-- Whether a finding of this severity makes a compilation fail. -/
def isError (s : Severity) : Bool := 2 ≤ s.rank

end Severity

/-- The kind of a finding, by number. -/
structure Code where
  number : Nat
deriving DecidableEq, Repr, Inhabited

namespace Code

def unknown : Code := ⟨0⟩
def unknownChar : Code := ⟨1001⟩
def unterminatedString : Code := ⟨1002⟩
def badNumber : Code := ⟨1003⟩
def unexpectedToken : Code := ⟨2001⟩
def unclosedParen : Code := ⟨2002⟩
def unclosedBrace : Code := ⟨2003⟩
def expectIdentifier : Code := ⟨2004⟩
def expectExpression : Code := ⟨2005⟩
def expectBlock : Code := ⟨2006⟩
def tooManyErrors : Code := ⟨2007⟩
def redeclaredVariable : Code := ⟨3001⟩
def redeclaredFunction : Code := ⟨3002⟩
def malformedNode : Code := ⟨3003⟩
def danglingJump : Code := ⟨4001⟩
def graphInvariant : Code := ⟨4002⟩
def spilled : Code := ⟨4101⟩
def divisionByZero : Code := ⟨5001⟩
def undefinedVariable : Code := ⟨5002⟩
def undefinedFunction : Code := ⟨5003⟩
def wrongArity : Code := ⟨5004⟩
def typeMismatch : Code := ⟨5005⟩
def stepLimit : Code := ⟨5006⟩
def stackOverflow : Code := ⟨5007⟩
def cancelled : Code := ⟨5008⟩
def timings : Code := ⟨6001⟩
def loadFailed : Code := ⟨7001⟩

/-- What each declared code stands for. -/
def titles : List (Nat × String) := [
  (0, "Unknown error"),
  (1000, "Lexical information"),
  (1001, "Unknown character"),
  (1002, "Unterminated string literal"),
  (1003, "Malformed number literal"),
  (2000, "Syntax information"),
  (2001, "Unexpected token"),
  (2002, "Unclosed parenthesis"),
  (2003, "Unclosed brace"),
  (2004, "Expected identifier"),
  (2005, "Expected expression"),
  (2006, "Expected block"),
  (2007, "Too many syntax errors"),
  (3000, "Code generation information"),
  (3001, "Variable redeclared in the same scope"),
  (3002, "Function redeclared"),
  (3003, "Malformed syntax tree node"),
  (4001, "Jump to undefined label"),
  (4002, "Control flow graph invariant violated"),
  (4101, "Variable spilled"),
  (5001, "Division by zero"),
  (5002, "Undefined variable"),
  (5003, "Undefined function"),
  (5004, "Wrong number of arguments"),
  (5005, "Type mismatch"),
  (5006, "Step limit exceeded"),
  (5007, "Call depth exceeded"),
  (5008, "Execution cancelled"),
  (6001, "Pipeline timings"),
  (7001, "I/O error")]

/-- The title of a code; an undeclared code has the title of the unknown one. -/
def title (c : Code) : Text :=
  match titles.find? (·.1 == c.number) with
  | some (_, t) => t
  | none => "Unknown error"

/-- The letters of the range that a code number belongs to. -/
def area? (n : Nat) : Option String :=
  if n < 1000 then none
  else if n < 2000 then some "LEX"
  else if n < 3000 then some "SYN"
  else if n < 4000 then some "GEN"
  else if n < 4100 then some "CFG"
  else if n < 5000 then some "ALC"
  else if n < 6000 then some "RUN"
  else if n < 7000 then some "OBS"
  else if n < 8000 then some "IO"
  else none

/-- The identifier of a code: its area and number. -/
def id (c : Code) : Text :=
  match area? c.number with
  | some area => area ++ Text.zeroPad 4 (Text.ofNat c.number)
  | none => "E0000"

/-- Identifier and title. -/
def text (c : Code) : Text := "[" ++ c.id ++ "]: " ++ c.title

end Code

/-- A remark about a further span. -/
structure Note where
  span : Span
  message : Text
deriving DecidableEq, Repr, Inhabited

/-- A finding about a program. -/
structure Diagnostic where
  severity : Severity
  code : Code
  span : Span
  message : Text
  notes : List Note := []
deriving DecidableEq, Repr, Inhabited

namespace Diagnostic

/-- An error without notes. -/
def error (code : Code) (span : Span) (message : Text) : Diagnostic :=
  { severity := .error, code, span, message }

end Diagnostic

end ThreeAddress
