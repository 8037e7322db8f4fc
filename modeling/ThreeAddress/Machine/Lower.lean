import ThreeAddress.Machine.Instr
import ThreeAddress.Symbol.Table

/-!
# Machine code of a program

Every literal, and every variable that the symbol table knows, is loaded into a fresh register when
it is first mentioned and stays there for the rest of the program.  Temporaries, and variables the
table does not know, serve as registers under their own names.

A comparison becomes a `CMP` followed by a conditional jump whose target is the result register.
Logical operations branch to labels that are named after places in the code written so far.
-/

namespace ThreeAddress

/-- What lowering keeps: the code so far and the registers of the operands seen. -/
structure Lowering where
  code : Array MachineInstr := #[]
  registers : List ((OperandKind × Text) × Text) := []
  count : Nat := 0
deriving Repr

/-- Why a program has no machine code: an instruction of a kind that does not exist. -/
structure LowerError where
  place : Nat
  kind : InstrKind
deriving Repr

namespace LowerError

/-- The wording of the error. -/
def message (e : LowerError) : Text :=
  "instr " ++ Text.ofNat e.place ++ ": unsupported instruction " ++ e.kind.name

end LowerError

namespace Lowering

/-- Writes instructions. -/
def emit (s : Lowering) (is : List MachineInstr) : Lowering := { s with code := s.code ++ is }

/-- Loads a value into a fresh register and keeps it there for the operand. -/
def load (s : Lowering) (o : Operand) (value : Text) : Lowering × Text :=
  let register : Text := "r" ++ Text.ofNat s.count
  ({ s with
    code := s.code.push { op := .load, reg := register, value }
    registers := ((o.kind, o.text), register) :: s.registers
    count := s.count + 1 }, register)

/-- The register of an operand, loaded if it has none. -/
def register (table : Option SymbolTable) (s : Lowering) (o : Operand) : Lowering × Text :=
  match s.registers.lookup (o.kind, o.text) with
  | some r => (s, r)
  | none =>
    match o.kind with
    | .literal => s.load o o.text
    | .var =>
      match table.bind fun t => (t.addressOf o.text).toOption with
      | some address => s.load o (Text.ofNat address)
      | none => (s, o.text)
    | _ => (s, o.text)

/-- The two labels of a short branch, named after places relative to the end of the code. -/
def branchLabels (s : Lowering) : Text × Text :=
  ("L" ++ Text.ofNat (s.code.size + 2), "L" ++ Text.ofNat (s.code.size + 4))

/-- Compares `tested` with zero and on `jump` goes to where `target` gets the value `short`;
otherwise `target` gets the value `long`. -/
def branch (s : Lowering) (jump : Opcode) (tested target long short : Text) : Lowering :=
  let (shortLabel, endLabel) := s.branchLabels
  s.emit [
    { op := .cmp, left := tested, right := "0" },
    { op := jump, target := shortLabel },
    { op := .load, reg := target, value := long },
    { op := .jmp, target := endLabel },
    { op := .label, name := shortLabel },
    { op := .load, reg := target, value := short },
    { op := .label, name := endLabel }]

/-- Writes a binary operation on registers. -/
def binary (s : Lowering) (op : BinaryOp) (target left right : Text) : Lowering :=
  let arithmetic (op : Opcode) := s.emit [{ op, reg := target, left, right }]
  let comparison (op : Opcode) := s.emit [{ op := .cmp, left, right }, { op, target }]
  match op with
  | .add => arithmetic .add
  | .sub => arithmetic .sub
  | .mul => arithmetic .mul
  | .div => arithmetic .div
  | .mod => arithmetic .mod
  | .eq => comparison .je
  | .ne => comparison .jne
  | .lt => comparison .jl
  | .gt => comparison .jg
  | .le => comparison .jle
  | .ge => comparison .jge
  | .and => s.branch .je left target right "0"
  | .or => s.branch .jne left target right "1"
  | .other _ => s

/-- Pushes the arguments of a call. -/
def pushAll (table : Option SymbolTable) (s : Lowering) (args : List Operand) : Lowering :=
  args.foldl (fun s o =>
    let (s, r) := s.register table o
    s.emit [{ op := .push, value := r }]) s

/-- Writes the code of an instruction; `none` if its kind does not exist. -/
def instr? (table : Option SymbolTable) (s : Lowering) (i : Instr) : Option Lowering :=
  match i.kind with
  | .assign =>
    let (s, target) := s.register table i.target
    let (s, source) := s.register table i.source
    some (if target = source then s else s.emit [{ op := .load, reg := target, value := source }])
  | .binary op =>
    let (s, target) := s.register table i.target
    let (s, left) := s.register table i.left
    let (s, right) := s.register table i.right
    some (s.binary op target left right)
  | .unary op =>
    let (s, target) := s.register table i.target
    let (s, source) := s.register table i.source
    some (match op with
      | .not => s.branch .je source target "0" "1"
      | _ => s.emit [{ op := .sub, reg := target, left := "0", right := source }])
  | .label => some (s.emit [{ op := .label, name := i.label }])
  | .jump => some (s.emit [{ op := .jmp, target := i.label }])
  | .jumpIfFalse =>
    let (s, cond) := s.register table i.cond
    some (s.emit [{ op := .cmp, left := cond, right := "0" }, { op := .je, target := i.label }])
  | .jumpIfTrue =>
    let (s, cond) := s.register table i.cond
    some (s.emit [{ op := .cmp, left := cond, right := "0" }, { op := .jne, target := i.label }])
  | .call =>
    let (s, target) := s.register table i.target
    let s := s.pushAll table i.args
    some (s.emit [{ op := .call, target := i.func }, { op := .pop, reg := target }])
  | .ret =>
    let s := if i.hasValue then s.pushAll table [i.source] else s
    some (s.emit [{ op := .ret }])
  | .print =>
    let (s, source) := s.register table i.source
    some (s.emit [{ op := .print, reg := source }])
  | .functionStart => some (s.emit [{ op := .functionStart, name := i.func }])
  | .functionEnd => some (s.emit [{ op := .functionEnd }])
  | .other _ => none

/-- Writes the code of the instructions from a place on. -/
def instrs (table : Option SymbolTable) (s : Lowering) (place : Nat) :
    Program → Except LowerError Lowering
  | [] => .ok s
  | i :: rest =>
    match s.instr? table i with
    | some s => s.instrs table (place + 1) rest
    | none => .error ⟨place, i.kind⟩

end Lowering

namespace Program

/-- The machine code of a program, whose variables have the addresses of the table. -/
def lower (p : Program) (table : Option SymbolTable) : Except LowerError MachineCode :=
  (Lowering.instrs table {} 0 p).map (·.code.toList)

end Program

end ThreeAddress
