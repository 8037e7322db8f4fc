import Mathlib.Tactic.Common
import ThreeAddress.Machine.Lower
import ThreeAddress.Proofs.Code.Fragments

/-!
# The layout of machine code

An instruction is lowered in two parts: its operands are fetched one after another, some of them
pushed, and then the operation itself is written.  Fetching an operand loads it if it is a literal,
or a variable of the table, that has no register yet.  A fetched operand keeps its register.

`Lowering.after table p j` is the state after the first `j` instructions of the program `p`, so the
machine code of the instruction at place `j` stands between `machinePlace table p j` and
`machinePlace table p (j + 1)`.
-/

namespace ThreeAddress

/-- What decides whether two operands have the same register. -/
abbrev Operand.key (o : Operand) : OperandKind × Text := (o.kind, o.text)

namespace Lowering

/-- The register of an operand that has been fetched. -/
def nameOf (s : Lowering) (o : Operand) : Text :=
  (s.registers.lookup o.key).getD o.text

/-- The value with which an operand is loaded; none if it has a register, or serves as one. -/
def loadValue? (table : Option SymbolTable) (s : Lowering) (o : Operand) : Option Text :=
  match s.registers.lookup o.key with
  | some _ => none
  | none =>
    match o.kind with
    | .literal => some o.text
    | .var => (table.bind fun t => (t.addressOf o.text).toOption).map Text.ofNat
    | _ => none

variable {table : Option SymbolTable} {s s' : Lowering} {o o' : Operand} {v : Text}

theorem register_of_loadValue? (h : s.loadValue? table o = some v) :
  s.register table o = s.load o v
  := by
  rw [loadValue?] at h
  rw [register]
  cases hlookup : s.registers.lookup o.key with
  | some r =>
      rw [hlookup] at h
      cases h
  | none =>
      rw [hlookup] at h
      dsimp only at h ⊢
      cases hkind : o.kind with
      | literal =>
          rw [hkind] at h
          obtain rfl := Option.some.inj h
          rfl
      | var =>
          rw [hkind] at h
          obtain ⟨address, haddress, rfl⟩ := Option.map_eq_some_iff.mp h
          dsimp only
          rw [haddress]
      | none | temp | label | other =>
          rw [hkind] at h
          cases h

theorem register_of_loadValue?_eq_none (h : s.loadValue? table o = none) :
  s.register table o = (s, s.nameOf o)
  := by
  rw [loadValue?] at h
  rw [register, nameOf]
  cases hlookup : s.registers.lookup o.key with
  | some r => rfl
  | none =>
      rw [hlookup] at h
      dsimp only at h ⊢
      cases hkind : o.kind with
      | literal =>
          rw [hkind] at h
          cases h
      | var =>
          rw [hkind] at h
          dsimp only
          rw [Option.map_eq_none_iff.mp h]
          rfl
      | none | temp | label | other => rfl

/-- Whether and how an operand is loaded depends on its kind and text only. -/
theorem loadValue?_congr (h : o.key = o'.key) :
  s.loadValue? table o = s.loadValue? table o'
  := by
  obtain ⟨hkind, htext⟩ := Prod.mk.inj h
  rw [loadValue?, loadValue?, h, hkind, htext]

theorem loadValue?_load_self (v : Text) :
  (s.load o v).1.loadValue? table o = none
  := by
  rw [loadValue?]
  simp [load]

theorem nameOf_load_self (v : Text) :
  (s.load o v).1.nameOf o = (s.load o v).2
  := by
  rw [nameOf]
  simp [load]

/-- A fetched operand is not loaded again, and keeps its register, when another one is loaded. -/
theorem settled_load (h : s.loadValue? table o = none) (h' : s.loadValue? table o' = some v) :
  (s.load o' v).1.loadValue? table o = none ∧ (s.load o' v).1.nameOf o = s.nameOf o
  := by
  have hne : o.key ≠ o'.key := by
    intro heq
    rw [loadValue?_congr heq, h'] at h
    cases h
  have hlookup : (s.load o' v).1.registers.lookup o.key
      = s.registers.lookup o.key := by
    rw [load, List.lookup_cons, beq_eq_false_iff_ne.mpr hne]
  constructor
  · rw [loadValue?, hlookup]
    apply h
  · rw [nameOf, hlookup, nameOf]

/-! ### Fetching operands -/

/-- The operands that are fetched in `s` are fetched in `s'`, with the same registers. -/
def Keeps (table : Option SymbolTable) (s s' : Lowering) : Prop :=
  ∀ o, s.loadValue? table o = none → s'.loadValue? table o = none ∧ s'.nameOf o = s.nameOf o

theorem Keeps.refl (s : Lowering) :
  Keeps table s s
  := fun _ h => ⟨h, rfl⟩

theorem Keeps.trans {s₁ s₂ s₃ : Lowering} (h : Keeps table s₁ s₂) (h' : Keeps table s₂ s₃) :
  Keeps table s₁ s₃
  := by
  intro o ho
  obtain ⟨ho, hname⟩ := h o ho
  obtain ⟨ho, hname'⟩ := h' o ho
  use ho, hname'.trans hname

theorem keeps_emit (s : Lowering) (is : List MachineInstr) :
  Keeps table s (s.emit is)
  := Keeps.refl s

theorem keeps_register (s : Lowering) (o : Operand) :
  Keeps table s (s.register table o).1
  := by
  intro o' ho'
  cases h : s.loadValue? table o with
  | none =>
      rw [register_of_loadValue?_eq_none h]
      use ho'
  | some v =>
      rw [register_of_loadValue? h]
      apply settled_load ho' h

/-- After fetching an operand has the register that was given to it. -/
theorem settled_register (s : Lowering) (o : Operand) :
  (s.register table o).1.loadValue? table o = none
    ∧ (s.register table o).1.nameOf o = (s.register table o).2
  := by
  cases h : s.loadValue? table o with
  | none =>
      rw [register_of_loadValue?_eq_none h]
      use h
  | some v =>
      rw [register_of_loadValue? h]
      use loadValue?_load_self v
      apply nameOf_load_self

/-- Fetches an operand, and pushes it if asked to. -/
def fetch (table : Option SymbolTable) (s : Lowering) (x : Operand × Bool) : Lowering :=
  let (s', r) := s.register table x.1
  if x.2 then s'.emit [{ op := .push, value := r }] else s'

/-- Fetches operands one after another. -/
def fetchAll (table : Option SymbolTable) (s : Lowering) (xs : List (Operand × Bool)) : Lowering :=
  xs.foldl (fetch table) s

theorem keeps_fetch (s : Lowering) (x : Operand × Bool) :
  Keeps table s (s.fetch table x)
  := by
  rw [fetch]
  dsimp only
  split
  · apply (keeps_register s x.1).trans (keeps_emit _ _)
  · apply keeps_register s x.1

theorem settled_fetch (s : Lowering) (x : Operand × Bool) :
  (s.fetch table x).loadValue? table x.1 = none
    ∧ (s.fetch table x).nameOf x.1 = (s.register table x.1).2
  := by
  rw [fetch]
  dsimp only
  split
  · apply settled_register
  · apply settled_register

theorem keeps_fetchAll (s : Lowering) (xs : List (Operand × Bool)) :
  Keeps table s (s.fetchAll table xs)
  := by
  induction xs generalizing s with
  | nil => apply Keeps.refl
  | cons x xs ih => apply (keeps_fetch s x).trans (ih _)

/-- Every operand in a list is fetched after the list. -/
theorem settled_fetchAll {xs : List (Operand × Bool)} {x : Operand × Bool} (h : x ∈ xs)
    (s : Lowering) :
  (s.fetchAll table xs).loadValue? table x.1 = none
  := by
  induction xs generalizing s with
  | nil => cases h
  | cons y xs ih =>
      obtain rfl | h := List.mem_cons.mp h
      · apply (keeps_fetchAll _ xs _ (settled_fetch s x).1).1
      · apply ih h

/-- The register of an operand in a list is the one that it was given in its turn. -/
theorem nameOf_fetchAll (table : Option SymbolTable) (s : Lowering)
    (before : List (Operand × Bool)) (x : Operand × Bool) (rest : List (Operand × Bool)) :
  (s.fetchAll table (before ++ x :: rest)).nameOf x.1
    = ((s.fetchAll table before).register table x.1).2
  := by
  rw [fetchAll, List.foldl_append, List.foldl_cons]
  obtain ⟨hsettled, hname⟩ := settled_fetch (s.fetchAll table before) x
  apply (keeps_fetchAll _ rest _ hsettled).2.trans hname

theorem pushAll_eq (s : Lowering) (args : List Operand) :
  s.pushAll table args = s.fetchAll table (args.map (·, true))
  := by
  rw [pushAll, fetchAll, List.foldl_map]
  rfl

end Lowering

/-! ### Writing the operation -/

/-- The operands that lowering an instruction fetches, in order, with whether they are pushed. -/
def Instr.fetched (i : Instr) : List (Operand × Bool) :=
  match i.kind with
  | .assign | .unary _ => [(i.target, false), (i.source, false)]
  | .binary _ => [(i.target, false), (i.left, false), (i.right, false)]
  | .jumpIfFalse | .jumpIfTrue => [(i.cond, false)]
  | .call => (i.target, false) :: i.args.map (·, true)
  | .ret => if i.hasValue then [(i.source, true)] else []
  | .print => [(i.source, false)]
  | _ => []

/-- All operands of an instruction are fetched, but for the parameters of a function. -/
theorem Instr.map_fst_fetched {i : Instr} (h : i.kind ≠ .functionStart) :
  i.fetched.map (·.1) = i.operands
  := by
  rw [fetched, operands, defs, uses]
  cases hkind : i.kind with
  | functionStart => contradiction
  | call => simp [Function.comp_def]
  | ret =>
      dsimp only
      split
      · rfl
      · rfl
  | _ => rfl

theorem Instr.mem_operands_of_mem_fetched {i : Instr} {x : Operand × Bool} (h : x ∈ i.fetched) :
  x.1 ∈ i.operands
  := by
  by_cases hkind : i.kind = .functionStart
  · rw [fetched, hkind] at h
    cases h
  · rw [← map_fst_fetched hkind]
    apply List.mem_map_of_mem h

namespace MachineCode

/-- A short branch at place `n`. -/
def branch (n : Nat) (jump : Opcode) (tested target long short : Text) : MachineCode :=
  [{ op := .cmp, left := tested, right := "0" },
   { op := jump, target := numberedLabel (n + 2) },
   { op := .load, reg := target, value := long },
   { op := .jmp, target := numberedLabel (n + 4) },
   { op := .label, name := numberedLabel (n + 2) },
   { op := .load, reg := target, value := short },
   { op := .label, name := numberedLabel (n + 4) }]

/-- A comparison. -/
def comparison (op : Opcode) (target left right : Text) : MachineCode :=
  [{ op := .cmp, left, right }, { op, target }]

/-- A binary operation at place `n`. -/
def binary (n : Nat) (op : BinaryOp) (target left right : Text) : MachineCode :=
  match op with
  | .add => [{ op := .add, reg := target, left, right }]
  | .sub => [{ op := .sub, reg := target, left, right }]
  | .mul => [{ op := .mul, reg := target, left, right }]
  | .div => [{ op := .div, reg := target, left, right }]
  | .mod => [{ op := .mod, reg := target, left, right }]
  | .eq => comparison .je target left right
  | .ne => comparison .jne target left right
  | .lt => comparison .jl target left right
  | .gt => comparison .jg target left right
  | .le => comparison .jle target left right
  | .ge => comparison .jge target left right
  | .and => branch n .je left target right "0"
  | .or => branch n .jne left target right "1"
  | .other _ => []

end MachineCode

/-- What is written at place `n` for an instruction whose operands have been fetched into the
registers that `name` gives. -/
def Instr.operation (name : Operand → Text) (n : Nat) (i : Instr) : MachineCode :=
  match i.kind with
  | .assign =>
    if name i.target = name i.source then []
    else [{ op := .load, reg := name i.target, value := name i.source }]
  | .binary op => MachineCode.binary n op (name i.target) (name i.left) (name i.right)
  | .unary .not => MachineCode.branch n .je (name i.source) (name i.target) "0" "1"
  | .unary _ => [{ op := .sub, reg := name i.target, left := "0", right := name i.source }]
  | .label => [{ op := .label, name := i.label }]
  | .jump => [{ op := .jmp, target := i.label }]
  | .jumpIfFalse =>
    [{ op := .cmp, left := name i.cond, right := "0" }, { op := .je, target := i.label }]
  | .jumpIfTrue =>
    [{ op := .cmp, left := name i.cond, right := "0" }, { op := .jne, target := i.label }]
  | .call => [{ op := .call, target := i.func }, { op := .pop, reg := name i.target }]
  | .ret => [{ op := .ret }]
  | .print => [{ op := .print, reg := name i.source }]
  | .functionStart => [{ op := .functionStart, name := i.func }]
  | .functionEnd => [{ op := .functionEnd }]
  | .other _ => []

namespace Lowering

variable {table : Option SymbolTable} {s s' : Lowering}

theorem emit_nil (s : Lowering) :
  s.emit [] = s
  := by
  simp [emit]

theorem emit_ite (s : Lowering) (c : Prop) [Decidable c] (is : List MachineInstr) :
  s.emit (if c then [] else is) = if c then s else s.emit is
  := by
  split
  · apply emit_nil
  · rfl

theorem binary_eq (s : Lowering) (op : BinaryOp) (target left right : Text) :
  s.binary op target left right = s.emit (MachineCode.binary s.code.size op target left right)
  := by
  cases op with
  | other code => apply (emit_nil s).symm
  | _ => rfl

/-- Fetches the operands of an instruction and writes its operation. -/
def next (table : Option SymbolTable) (s : Lowering) (i : Instr) : Lowering :=
  let s' := s.fetchAll table i.fetched
  s'.emit (i.operation s'.nameOf s'.code.size)

/-- Lowering an instruction fetches its operands and then writes its operation. -/
theorem instr?_eq (s : Lowering) {i : Instr} (h : ∀ code, i.kind ≠ .other code) :
  s.instr? table i = some (s.next table i)
  := by
  cases hkind : i.kind with
  | assign =>
      have htarget := nameOf_fetchAll table s [] (i.target, false) [(i.source, false)]
      have hsource := nameOf_fetchAll table s [(i.target, false)] (i.source, false) []
      rw [instr?, next, Instr.fetched, Instr.operation, hkind]
      dsimp only [List.nil_append, List.singleton_append] at htarget hsource ⊢
      rw [htarget, hsource, emit_ite]
      rfl
  | binary op =>
      have htarget :=
        nameOf_fetchAll table s [] (i.target, false) [(i.left, false), (i.right, false)]
      have hleft := nameOf_fetchAll table s [(i.target, false)] (i.left, false) [(i.right, false)]
      have hright :=
        nameOf_fetchAll table s [(i.target, false), (i.left, false)] (i.right, false) []
      rw [instr?, next, Instr.fetched, Instr.operation, hkind]
      dsimp only [List.nil_append, List.singleton_append, List.cons_append]
        at htarget hleft hright ⊢
      rw [htarget, hleft, hright]
      apply congrArg some (binary_eq _ _ _ _ _)
  | unary op =>
      have htarget := nameOf_fetchAll table s [] (i.target, false) [(i.source, false)]
      have hsource := nameOf_fetchAll table s [(i.target, false)] (i.source, false) []
      rw [instr?, next, Instr.fetched, Instr.operation, hkind]
      dsimp only [List.nil_append, List.singleton_append] at htarget hsource ⊢
      rw [htarget, hsource]
      cases op with
      | not | neg | other => rfl
  | call =>
      have htarget := nameOf_fetchAll table s [] (i.target, false) (i.args.map (·, true))
      rw [instr?, next, Instr.fetched, Instr.operation, hkind]
      dsimp only [List.nil_append] at htarget ⊢
      rw [htarget, pushAll_eq]
      rfl
  | ret =>
      rw [instr?, next, Instr.fetched, Instr.operation, hkind]
      dsimp only
      split
      · rw [pushAll_eq]
        rfl
      · rfl
  | print | jumpIfFalse | jumpIfTrue =>
      have hname := nameOf_fetchAll table s []
      rw [instr?, next, Instr.fetched, Instr.operation, hkind]
      dsimp only [List.nil_append] at hname ⊢
      rw [hname (_, false) []]
      rfl
  | label | jump | functionStart | functionEnd =>
      rw [instr?, next, Instr.fetched, Instr.operation, hkind]
      rfl
  | other code => cases h code hkind

theorem keeps_next (s : Lowering) (i : Instr) :
  Keeps table s (s.next table i)
  := (keeps_fetchAll s i.fetched).trans (keeps_emit _ _)

/-- The state after the first `j` instructions of a program. -/
def after (table : Option SymbolTable) (p : Program) (j : Nat) : Lowering :=
  (p.take j).foldl (next table) {}

theorem after_succ {p : Program} {j : Nat} {i : Instr} (h : p[j]? = some i) :
  after table p (j + 1) = (after table p j).next table i
  := by
  rw [after, List.take_add_one, h, Option.toList_some, List.foldl_append]
  rfl

theorem after_of_le {p : Program} {j : Nat} (h : p.length ≤ j) :
  after table p (j + 1) = after table p j
  := by
  rw [after, after, List.take_of_length_le h, List.take_of_length_le (by omega)]

/-- What is fetched after some instructions stays fetched, with its register. -/
theorem keeps_after (table : Option SymbolTable) (p : Program) {j k : Nat} (h : j ≤ k) :
  Keeps table (after table p j) (after table p k)
  := by
  induction h with
  | refl => apply Keeps.refl
  | @step k _ ih =>
      cases hk : p[k]? with
      | none =>
          rw [after_of_le (List.getElem?_eq_none_iff.mp hk)]
          apply ih
      | some i =>
          rw [after_succ hk]
          apply ih.trans (keeps_next _ i)

/-! ### The code of an instruction -/

/-- What is written to load an operand. -/
def loadCode (table : Option SymbolTable) (s : Lowering) (o : Operand) : MachineCode :=
  match s.loadValue? table o with
  | some v => [{ op := .load, reg := (s.register table o).2, value := v }]
  | none => []

/-- What is written to fetch an operand, and to push it if asked to. -/
def operandCode (table : Option SymbolTable) (s : Lowering) (x : Operand × Bool) : MachineCode :=
  s.loadCode table x.1 ++ if x.2 then [{ op := .push, value := (s.register table x.1).2 }] else []

/-- What is written to fetch operands. -/
def fetchCode (table : Option SymbolTable) (s : Lowering) : List (Operand × Bool) → MachineCode
  | [] => []
  | x :: xs => s.operandCode table x ++ (s.fetch table x).fetchCode table xs

theorem toList_code_register (s : Lowering) (o : Operand) :
  (s.register table o).1.code.toList = s.code.toList ++ s.loadCode table o
  := by
  rw [loadCode]
  cases h : s.loadValue? table o with
  | none =>
      rw [register_of_loadValue?_eq_none h]
      simp
  | some v =>
      rw [register_of_loadValue? h]
      simp [load]

theorem toList_code_fetchAll (s : Lowering) (xs : List (Operand × Bool)) :
  (s.fetchAll table xs).code.toList = s.code.toList ++ s.fetchCode table xs
  := by
  induction xs generalizing s with
  | nil => simp [fetchAll, fetchCode]
  | cons x xs ih =>
      have hfetch : (s.fetch table x).code.toList = s.code.toList ++ s.operandCode table x := by
        rw [fetch, operandCode]
        dsimp only
        split
        · simp [emit, toList_code_register]
        · simp [toList_code_register]
      rw [fetchCode, fetchAll, List.foldl_cons, ← fetchAll, ih, hfetch, List.append_assoc]

/-- Fetching operands writes loads and pushes only. -/
theorem op_of_mem_fetchCode {x : MachineInstr} {xs : List (Operand × Bool)}
    (h : x ∈ s.fetchCode table xs) :
  x.op = .load ∨ x.op = .push
  := by
  induction xs generalizing s with
  | nil => cases h
  | cons y xs ih =>
      rw [fetchCode, operandCode, List.mem_append, List.mem_append] at h
      obtain (h | h) | h := h
      · left
        rw [loadCode] at h
        split at h
        · rw [List.mem_singleton.mp h]
        · cases h
      · right
        split at h
        · rw [List.mem_singleton.mp h]
        · cases h
      · apply ih h

theorem not_isJump_of_mem_fetchCode {x : MachineInstr} {xs : List (Operand × Bool)}
    (h : x ∈ s.fetchCode table xs) :
  ¬ x.op.isJump
  := by
  obtain hop | hop := op_of_mem_fetchCode h
  · rw [hop]
    decide
  · rw [hop]
    decide

theorem op_ne_jmp_of_mem_fetchCode {x : MachineInstr} {xs : List (Operand × Bool)}
    (h : x ∈ s.fetchCode table xs) :
  x.op ≠ .jmp
  := by
  intro hop
  apply not_isJump_of_mem_fetchCode h
  rw [hop]
  rfl

end Lowering

namespace Program

variable {table : Option SymbolTable} {p : Program} {i : Instr} {x : MachineInstr}

/-- The machine code of a program. -/
def machineCode (table : Option SymbolTable) (p : Program) : MachineCode :=
  (Lowering.after table p p.length).code.toList

/-- The place in the machine code at which the code of the instruction at place `j` begins. -/
def machinePlace (table : Option SymbolTable) (p : Program) (j : Nat) : Nat :=
  (Lowering.after table p j).code.size

/-- The code that fetches the operands of the instruction `i` at place `j`. -/
def fetchPart (table : Option SymbolTable) (p : Program) (j : Nat) (i : Instr) : MachineCode :=
  (Lowering.after table p j).fetchCode table i.fetched

/-- The place in the machine code at which the operation of the instruction `i` at place `j`
begins. -/
def operationPlace (table : Option SymbolTable) (p : Program) (j : Nat) (i : Instr) : Nat :=
  ((Lowering.after table p j).fetchAll table i.fetched).code.size

/-- The register in which the operation of the instruction `i` at place `j` finds an operand. -/
def nameAt (table : Option SymbolTable) (p : Program) (j : Nat) (i : Instr) (o : Operand) : Text :=
  ((Lowering.after table p j).fetchAll table i.fetched).nameOf o

/-- The operation of the instruction `i` at place `j`. -/
def operationPart (table : Option SymbolTable) (p : Program) (j : Nat) (i : Instr) : MachineCode :=
  i.operation (p.nameAt table j i) (p.operationPlace table j i)

/-- The machine code of the instruction `i` at place `j`. -/
def piece (table : Option SymbolTable) (p : Program) (j : Nat) (i : Instr) : MachineCode :=
  p.fetchPart table j i ++ p.operationPart table j i

theorem operationPlace_eq (table : Option SymbolTable) (p : Program) (j : Nat) (i : Instr) :
  p.operationPlace table j i = p.machinePlace table j + (p.fetchPart table j i).length
  := by
  rw [operationPlace, ← Array.length_toList, Lowering.toList_code_fetchAll, List.length_append,
    Array.length_toList, machinePlace, fetchPart]

/-- A program without instructions of unknown kinds is lowered. -/
theorem lower_eq (hp : ∀ i ∈ p, ∀ code, i.kind ≠ .other code) :
  p.lower table = .ok (p.machineCode table)
  := by
  have hinstrs : ∀ s place,
      Lowering.instrs table s place p = .ok (p.foldl (Lowering.next table) s) := by
    induction p with
    | nil =>
        intro s place
        rfl
    | cons i p ih =>
        intro s place
        obtain ⟨hi, hp⟩ := List.forall_mem_cons.mp hp
        rw [Lowering.instrs, Lowering.instr?_eq s hi, List.foldl_cons]
        apply ih hp
  rw [lower, hinstrs, machineCode, Lowering.after, List.take_length]
  rfl

theorem toList_code_after_succ (table : Option SymbolTable) {j : Nat} (hi : p[j]? = some i) :
  (Lowering.after table p (j + 1)).code.toList
    = (Lowering.after table p j).code.toList ++ p.piece table j i
  := by
  rw [Lowering.after_succ hi, Lowering.next, piece, fetchPart, operationPart, ← List.append_assoc,
    ← Lowering.toList_code_fetchAll]
  apply Array.toList_appendList

theorem machinePlace_succ (table : Option SymbolTable) {j : Nat} (hi : p[j]? = some i) :
  p.machinePlace table (j + 1) = p.machinePlace table j + (p.piece table j i).length
  := by
  rw [machinePlace, machinePlace, ← Array.length_toList,
    toList_code_after_succ table hi, List.length_append, Array.length_toList]

theorem prefix_after (table : Option SymbolTable) (p : Program) {j k : Nat} (h : j ≤ k) :
  (Lowering.after table p j).code.toList <+: (Lowering.after table p k).code.toList
  := by
  induction h with
  | refl => apply List.prefix_refl
  | @step k _ ih =>
      cases hk : p[k]? with
      | none =>
          rw [Lowering.after_of_le (List.getElem?_eq_none_iff.mp hk)]
          apply ih
      | some i =>
          rw [toList_code_after_succ table hk]
          apply ih.trans (List.prefix_append _ _)

theorem machinePlace_mono (table : Option SymbolTable) (p : Program) {j k : Nat} (h : j ≤ k) :
  p.machinePlace table j ≤ p.machinePlace table k
  := (p.prefix_after table h).length_le

/-- Only the code of an instruction of the program begins before the end of the machine code. -/
theorem lt_length_of_machinePlace_lt {j : Nat}
    (h : p.machinePlace table j < (p.machineCode table).length) :
  j < p.length
  := by
  by_contra hge
  have := p.machinePlace_mono table (Nat.not_lt.mp hge)
  rw [machineCode, Array.length_toList] at h
  rw [machinePlace] at this
  omega

/-- The machine code of an instruction stands at its place. -/
theorem getElem?_machineCode {j k : Nat} (hi : p[j]? = some i)
    (hx : (p.piece table j i)[k]? = some x) :
  (p.machineCode table)[p.machinePlace table j + k]? = some x
  := by
  have hlt : j < p.length := (List.getElem?_eq_some_iff.mp hi).1
  obtain ⟨rest, hrest⟩ := p.prefix_after table (Nat.succ_le_of_lt hlt)
  have hk : k < (p.piece table j i).length := (List.getElem?_eq_some_iff.mp hx).1
  rw [machineCode, ← hrest, toList_code_after_succ table hi, List.append_assoc, machinePlace,
    ← Array.length_toList, List.getElem?_append_right (Nat.le_add_right _ _),
    Nat.add_sub_cancel_left, List.getElem?_append_left hk, hx]

/-- What stands in the code of an instruction is read off the machine code. -/
theorem getElem?_piece {j k : Nat} (hi : p[j]? = some i) (hk : k < (p.piece table j i).length)
    (hx : (p.machineCode table)[p.machinePlace table j + k]? = some x) :
  (p.piece table j i)[k]? = some x
  := by
  rw [← hx, getElem?_machineCode hi (List.getElem?_eq_getElem hk), List.getElem?_eq_getElem hk]

/-- Every machine instruction belongs to the code of an instruction. -/
theorem exists_piece {n : Nat} (hx : (p.machineCode table)[n]? = some x) :
  ∃ j i k, p[j]? = some i ∧ n = p.machinePlace table j + k ∧ (p.piece table j i)[k]? = some x
  := by
  have hmain : ∀ j, (Lowering.after table p j).code.toList[n]? = some x →
      ∃ j i k, p[j]? = some i ∧ n = p.machinePlace table j + k
        ∧ (p.piece table j i)[k]? = some x := by
    intro j
    induction j with
    | zero =>
        intro h
        cases h
    | succ j ih =>
        intro h
        cases hj : p[j]? with
        | none =>
            rw [Lowering.after_of_le (List.getElem?_eq_none_iff.mp hj)] at h
            apply ih h
        | some i =>
            rw [toList_code_after_succ table hj] at h
            by_cases hn : n < p.machinePlace table j
            · rw [machinePlace, ← Array.length_toList] at hn
              rw [List.getElem?_append_left hn] at h
              apply ih h
            · rw [Nat.not_lt] at hn
              use j, i, n - p.machinePlace table j, hj, by omega
              rw [machinePlace, ← Array.length_toList] at hn
              rw [List.getElem?_append_right hn, Array.length_toList] at h
              apply h
  apply hmain p.length hx

/-- The operation of an instruction stands at its place. -/
theorem getElem?_operationPart {j k : Nat} (hi : p[j]? = some i)
    (hx : (p.operationPart table j i)[k]? = some x) :
  (p.machineCode table)[p.operationPlace table j i + k]? = some x
  := by
  rw [operationPlace_eq, Nat.add_assoc]
  apply getElem?_machineCode hi
  rw [piece, List.getElem?_append_right (Nat.le_add_right _ _), Nat.add_sub_cancel_left, hx]

/-- Every machine instruction fetches an operand of an instruction or belongs to its operation. -/
theorem exists_part {n : Nat} (hx : (p.machineCode table)[n]? = some x) :
  ∃ j i, p[j]? = some i
    ∧ ((∃ k, n = p.machinePlace table j + k ∧ (p.fetchPart table j i)[k]? = some x)
      ∨ ∃ k, n = p.operationPlace table j i + k ∧ (p.operationPart table j i)[k]? = some x)
  := by
  obtain ⟨j, i, k, hi, rfl, hk⟩ := exists_piece hx
  use j, i, hi
  by_cases hlt : k < (p.fetchPart table j i).length
  · left
    use k, rfl
    rw [← hk, piece, List.getElem?_append_left hlt]
  · right
    rw [Nat.not_lt] at hlt
    use k - (p.fetchPart table j i).length
    rw [← hk, piece, List.getElem?_append_right hlt, operationPlace_eq]
    use by omega

theorem le_operationPlace (table : Option SymbolTable) (p : Program) (j : Nat) (i : Instr) :
  p.machinePlace table j ≤ p.operationPlace table j i
  := by
  rw [operationPlace_eq]
  apply Nat.le_add_right

theorem machinePlace_succ_eq (table : Option SymbolTable) {j : Nat} (hi : p[j]? = some i) :
  p.machinePlace table (j + 1)
    = p.operationPlace table j i + (p.operationPart table j i).length
  := by
  rw [machinePlace_succ table hi, piece, List.length_append, operationPlace_eq, Nat.add_assoc]

/-- The code of two instructions does not overlap. -/
theorem eq_of_place {j j' n : Nat} (h : p.machinePlace table j ≤ n)
    (hlt : n < p.machinePlace table (j + 1)) (h' : p.machinePlace table j' ≤ n)
    (hlt' : n < p.machinePlace table (j' + 1)) :
  j = j'
  := by
  obtain hjj | heq | hjj := Nat.lt_trichotomy j j'
  · have := p.machinePlace_mono table (show j + 1 ≤ j' from hjj)
    omega
  · apply heq
  · have := p.machinePlace_mono table (show j' + 1 ≤ j from hjj)
    omega

/-- The operation of an instruction stands in its code. -/
theorem place_of_operationPart {j k : Nat} (hi : p[j]? = some i)
    (hx : (p.operationPart table j i)[k]? = some x) :
  p.machinePlace table j ≤ p.operationPlace table j i + k
    ∧ p.operationPlace table j i + k < p.machinePlace table (j + 1)
  := by
  have hk := (List.getElem?_eq_some_iff.mp hx).1
  have := p.le_operationPlace table j i
  have := machinePlace_succ_eq table hi
  omega

end Program

end ThreeAddress
