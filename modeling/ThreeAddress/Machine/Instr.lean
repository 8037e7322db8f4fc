import ThreeAddress.Code.Instr
import ThreeAddress.Json

/-!
# Machine instructions

The instructions of an abstract load/store machine.  Registers, immediate values and labels are
plain texts; which slots matter depends on the operation:

* `LOAD` and `STORE` have a register and a value;
* arithmetic has a register, a left and a right operand, and `CMP` only the operands;
* jumps and calls have a target;
* `PUSH` has a value, `POP` and `PRINT` have a register;
* labels and function starts have a name.
-/

namespace ThreeAddress

/-- The operations of the machine. -/
inductive Opcode where
  | load | store
  | add | sub | mul | div | mod
  | cmp
  | je | jne | jl | jg | jle | jge | jmp
  | call | ret | push | pop | print
  | label | functionStart | functionEnd
  | other (code : Nat)
deriving DecidableEq, Repr, Inhabited

namespace Opcode

/-- The known operations in the order of their numbers. -/
def all : List Opcode :=
  [load, store, add, sub, mul, div, mod, cmp, je, jne, jl, jg, jle, jge, jmp, call, ret, push, pop,
    print, label, functionStart, functionEnd]

/-- The operation of a number. -/
def ofNumber (n : Nat) : Opcode := all.getD n (other n)

/-- The number of an operation. -/
def toNumber : Opcode → Nat
  | other n => n
  | op => all.idxOf op

/-- The name of an operation. -/
def name : Opcode → Text
  | load => "LOAD"
  | store => "STORE"
  | add => "ADD"
  | sub => "SUB"
  | mul => "MUL"
  | div => "DIV"
  | mod => "MOD"
  | cmp => "CMP"
  | je => "JE"
  | jne => "JNE"
  | jl => "JL"
  | jg => "JG"
  | jle => "JLE"
  | jge => "JGE"
  | jmp => "JMP"
  | call => "CALL"
  | ret => "RET"
  | push => "PUSH"
  | pop => "POP"
  | print => "PRINT"
  | label => "LABEL"
  | functionStart => "FUNCTION_START"
  | functionEnd => "FUNCTION_END"
  | other _ => "OP(?)"

/-- Whether the operation is arithmetic on registers. -/
def isArithmetic : Opcode → Bool
  | add | sub | mul | div | mod => true
  | _ => false

/-- Whether the operation is a jump. -/
def isJump : Opcode → Bool
  | je | jne | jl | jg | jle | jge | jmp => true
  | _ => false

end Opcode

/-- A machine instruction. -/
structure MachineInstr where
  op : Opcode
  reg : Text := []
  left : Text := []
  right : Text := []
  value : Text := []
  target : Text := []
  name : Text := []
deriving DecidableEq, Repr, Inhabited

namespace MachineInstr

/-- The instruction in assembly notation. -/
def shown (i : MachineInstr) : Text :=
  match i.op with
  | .load | .store => i.op.name ++ " " ++ i.reg ++ ", " ++ i.value
  | .cmp => "CMP " ++ i.left ++ ", " ++ i.right
  | .call => "CALL " ++ i.target
  | .ret | .functionEnd => "RET"
  | .push => "PUSH " ++ i.value
  | .pop => "POP " ++ i.reg
  | .print => "PRINT " ++ i.reg
  | .label | .functionStart => i.name ++ ":"
  | op =>
    if op.isArithmetic then op.name ++ " " ++ i.reg ++ ", " ++ i.left ++ ", " ++ i.right
    else if op.isJump then op.name ++ " " ++ i.target
    else op.name

/-- The object of an instruction. -/
def json (i : MachineInstr) : Json :=
  .record [
    [("type", .nat i.op.toNumber)],
    Json.textField "reg" i.reg,
    Json.textField "left" i.left,
    Json.textField "right" i.right,
    Json.textField "value" i.value,
    Json.textField "target" i.target,
    Json.textField "name" i.name]

end MachineInstr

/-- Machine code. -/
abbrev MachineCode := List MachineInstr

namespace MachineCode

/-- The code as numbered lines, with a remark in place of empty code. -/
def listing (c : MachineCode) : Text :=
  if c.isEmpty then "  (No CPU instructions generated)\n"
  else Program.numberedLines (c.map MachineInstr.shown)

/-- The document of machine code; empty code is absent. -/
def json (c : MachineCode) : Json := .arrayOrNull (c.map MachineInstr.json)

end MachineCode

end ThreeAddress
