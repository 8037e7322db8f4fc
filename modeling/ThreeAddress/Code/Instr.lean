import ThreeAddress.Syntax.Operator

/-!
# Three-address instructions

An instruction has a kind and slots for operands, names and labels; which slots matter depends on
the kind:

* an assignment has a target and a source;
* a binary operation has a target, a left and a right operand;
* a unary operation has a target and a source;
* labels and jumps have a label, conditional jumps a condition as well;
* a call has a target, the name of the function and arguments;
* a return has a source if it returns a value, and a print always has one;
* the start of a function has its name and parameters.

`Instr.defs` and `Instr.uses` are the operands that an instruction writes and reads.
-/

namespace ThreeAddress

/-- What an operand stands for. -/
inductive OperandKind where
  | none | literal | var | temp | label
  | other (code : Nat)
deriving DecidableEq, Repr, Inhabited

namespace OperandKind

/-- The kind of a number. -/
def ofNumber : Nat → OperandKind
  | 0 => none
  | 1 => literal
  | 2 => var
  | 3 => temp
  | 4 => label
  | n => other n

/-- The number of a kind. -/
def toNumber : OperandKind → Nat
  | none => 0
  | literal => 1
  | var => 2
  | temp => 3
  | label => 4
  | other n => n

/-- The name of a kind. -/
def name : OperandKind → Text
  | none => "none"
  | literal => "literal"
  | var => "variable"
  | temp => "temp"
  | label => "label"
  | other _ => "operand(?)"

end OperandKind

/-- An operand: its kind, its written form, the number of a temporary, the kind of a literal. -/
structure Operand where
  kind : OperandKind := .none
  text : Text := []
  temp : Int := 0
  lit : LiteralKind := .number
deriving DecidableEq, Repr, Inhabited

namespace Operand

/-- No operand. -/
def absent : Operand := {}

/-- A literal as written. -/
def literal (kind : LiteralKind) (text : Text) : Operand := { kind := .literal, text, lit := kind }

/-- A variable or parameter. -/
def var (name : Text) : Operand := { kind := .var, text := name }

/-- The `n`-th temporary. -/
def ofTemp (n : Nat) : Operand := { kind := .temp, text := "t" ++ Text.ofNat n, temp := n }

/-- Whether there is an operand. -/
def isPresent (o : Operand) : Bool := o.kind != .none

/-- Whether the operand is a literal. -/
def isLiteral (o : Operand) : Bool := o.kind == .literal

/-- Whether the operand is a variable. -/
def isVariable (o : Operand) : Bool := o.kind == .var

/-- Whether the operand is a temporary. -/
def isTemp (o : Operand) : Bool := o.kind == .temp

/-- The operand as written, `_` if there is none. -/
def shown (o : Operand) : Text := if o.kind = .none then "_" else o.text

end Operand

/-- The kinds of instructions. -/
inductive InstrKind where
  | assign
  | binary (op : BinaryOp)
  | unary (op : UnaryOp)
  | label | jump | jumpIfFalse | jumpIfTrue
  | call | ret | print | functionStart | functionEnd
  | other (code : Nat)
deriving DecidableEq, Repr, Inhabited

namespace InstrKind

/-- The kind of a number. -/
def ofNumber (n : Nat) : InstrKind :=
  if n = 0 then assign
  else if n ≤ 13 then binary (.ofNumber (n - 1))
  else match n with
    | 14 => unary .not
    | 15 => unary .neg
    | 16 => label
    | 17 => jump
    | 18 => jumpIfFalse
    | 19 => jumpIfTrue
    | 20 => call
    | 21 => ret
    | 22 => print
    | 23 => functionStart
    | 24 => functionEnd
    | n => other n

/-- The number of a kind. -/
def toNumber : InstrKind → Nat
  | assign => 0
  | binary op => 1 + BinaryOp.all.idxOf op
  | unary .not => 14
  | unary _ => 15
  | label => 16
  | jump => 17
  | jumpIfFalse => 18
  | jumpIfTrue => 19
  | call => 20
  | ret => 21
  | print => 22
  | functionStart => 23
  | functionEnd => 24
  | other n => n

/-- The name of a binary operation. -/
def binaryName : BinaryOp → Text
  | .add => "ADD"
  | .sub => "SUB"
  | .mul => "MUL"
  | .div => "DIV"
  | .mod => "MOD"
  | .eq => "EQ"
  | .ne => "NE"
  | .lt => "LT"
  | .gt => "GT"
  | .le => "LE"
  | .ge => "GE"
  | .and => "AND"
  | .or => "OR"
  | .other _ => "INSTR(?)"

/-- The name of a kind. -/
def name : InstrKind → Text
  | assign => "ASSIGN"
  | binary op => binaryName op
  | unary .not => "NOT"
  | unary _ => "NEG"
  | label => "LABEL"
  | jump => "JUMP"
  | jumpIfFalse => "JUMP_IF_FALSE"
  | jumpIfTrue => "JUMP_IF_TRUE"
  | call => "CALL"
  | ret => "RETURN"
  | print => "PRINT"
  | functionStart => "FUNCTION_START"
  | functionEnd => "FUNCTION_END"
  | other _ => "INSTR(?)"

/-- Whether control goes on at a label, perhaps. -/
def isJump : InstrKind → Bool
  | jump | jumpIfFalse | jumpIfTrue => true
  | _ => false

/-- Whether a jump depends on a condition. -/
def isConditional : InstrKind → Bool
  | jumpIfFalse | jumpIfTrue => true
  | _ => false

end InstrKind

/-- An instruction in record form. -/
structure Instr where
  kind : InstrKind
  target : Operand := {}
  left : Operand := {}
  right : Operand := {}
  source : Operand := {}
  cond : Operand := {}
  label : Text := []
  func : Text := []
  args : List Operand := []
  params : List Text := []
  hasValue : Bool := false
deriving DecidableEq, Repr, Inhabited

/-- A program is a list of instructions; functions stand inline between their start and end. -/
abbrev Program := List Instr

namespace Instr

/-- The operands that an instruction writes; a function's start writes its parameters. -/
def defs (i : Instr) : List Operand :=
  match i.kind with
  | .assign | .binary _ | .unary _ | .call => [i.target]
  | .functionStart => i.params.map .var
  | _ => []

/-- The operands that an instruction reads, in the order of the source. -/
def uses (i : Instr) : List Operand :=
  match i.kind with
  | .assign | .unary _ | .print => [i.source]
  | .binary _ => [i.left, i.right]
  | .jumpIfFalse | .jumpIfTrue => [i.cond]
  | .call => i.args
  | .ret => if i.hasValue then [i.source] else []
  | _ => []

/-- Written operands, then read ones. -/
def operands (i : Instr) : List Operand := i.defs ++ i.uses

/-- The instruction in the usual notation. -/
def shown (i : Instr) : Text :=
  match i.kind with
  | .assign => i.target.shown ++ " = " ++ i.source.shown
  | .binary op => i.target.shown ++ " = " ++ i.left.shown ++ " " ++ op.text ++ " " ++ i.right.shown
  | .unary op => i.target.shown ++ " = " ++ op.text ++ i.source.shown
  | .label => i.label ++ ":"
  | .jump => "goto " ++ i.label
  | .jumpIfFalse => "if (!" ++ i.cond.shown ++ ") goto " ++ i.label
  | .jumpIfTrue => "if (" ++ i.cond.shown ++ ") goto " ++ i.label
  | .call =>
    let args := Text.join ", " (i.args.map Operand.shown)
    i.target.shown ++ " = call " ++ i.func ++ "(" ++ args ++ ")"
  | .ret => if i.hasValue then "return " ++ i.source.shown else "return"
  | .print => "print " ++ i.source.shown
  | .functionStart => "function " ++ i.func ++ "(" ++ Text.join ", " i.params ++ ") \x7b"
  | .functionEnd => "\x7d"
  | .other _ => i.kind.name

end Instr

namespace Program

/-- Numbered lines, counting from one. -/
def numberedLines (ls : List Text) : Text :=
  Text.lines ((ls.zipIdx 1).map fun (l, n) => Text.padStart 3 (Text.ofNat n) ++ ". " ++ l)

/-- The program as numbered lines. -/
def dump (p : Program) : Text := numberedLines (p.map Instr.shown)

/-- The program as numbered lines, with a remark in place of an empty one. -/
def listing (p : Program) : Text :=
  if p.isEmpty then "  (No instructions generated)\n" else dump p

/-- The labels of a program with their places, from `start` on. -/
def labelsFrom (start : Nat) : Program → List (Text × Nat)
  | [] => []
  | i :: rest =>
    if i.kind = .label then (i.label, start) :: labelsFrom (start + 1) rest
    else labelsFrom (start + 1) rest

/-- The place of a label; of two labels with one name the later counts. -/
def labelIndex? (p : Program) (label : Text) : Option Nat :=
  ((labelsFrom 0 p).reverse.find? (·.1 == label)).map (·.2)

end Program

end ThreeAddress
