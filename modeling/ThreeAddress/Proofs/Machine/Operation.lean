import ThreeAddress.Proofs.Machine.Layout

/-!
# Operations of machine code

What the operation of an instruction consists of: its labels, its jumps, the registers that it reads
and those that it writes.  `Instr.Part` lists the forms of a machine instruction in an operation.  A
short branch has two labels of its own, which stand two places after those in their names.  Any
other operation has a label only if it is one, and jumps to the label of the instruction, but that
the jump of a comparison names the target of the comparison.
-/

namespace ThreeAddress

/-- Whether the instruction becomes a short branch. -/
def Instr.isShortBranch (i : Instr) : Bool :=
  match i.kind with
  | .binary .and | .binary .or | .unary .not => true
  | _ => false

/-- Whether the instruction compares its operands. -/
def Instr.isComparison (i : Instr) : Bool :=
  match i.kind with
  | .binary op =>
    match op with
    | .eq | .ne | .lt | .gt | .le | .ge => true
    | _ => false
  | _ => false

theorem Instr.isComputation_of_isShortBranch {i : Instr} (h : i.isShortBranch) :
  i.isComputation
  := by
  rw [isShortBranch] at h
  rw [isComputation]
  split at h
  · next hkind => rw [hkind]
  · next hkind => rw [hkind]
  · next hkind => rw [hkind]
  · cases h

theorem Instr.isComputation_of_isComparison {i : Instr} (h : i.isComparison) :
  i.isComputation
  := by
  rw [isComparison] at h
  rw [isComputation]
  split at h
  · next hkind => rw [hkind]
  · cases h

namespace MachineInstr

/-- The registers and values that the instruction reads. -/
def reads (x : MachineInstr) : List Text :=
  match x.op with
  | .load | .push => [x.value]
  | .add | .sub | .mul | .div | .mod | .cmp => [x.left, x.right]
  | .store | .print => [x.reg]
  | _ => []

/-- The registers that the instruction writes. -/
def writes (x : MachineInstr) : List Text :=
  match x.op with
  | .load | .add | .sub | .mul | .div | .mod | .pop => [x.reg]
  | _ => []

variable {x : MachineInstr}

theorem access_of_isArithmetic (h : x.op.isArithmetic) :
  x.reads = [x.left, x.right] ∧ x.writes = [x.reg] ∧ ¬ x.op.isJump
  := by
  obtain ⟨op⟩ := x
  cases op with
  | add | sub | mul | div | mod => exact ⟨rfl, rfl, nofun⟩
  | _ => cases h

theorem access_of_isJump (h : x.op.isJump) :
  x.reads = [] ∧ x.writes = []
  := by
  obtain ⟨op⟩ := x
  cases op with
  | je | jne | jl | jg | jle | jge | jmp => exact ⟨rfl, rfl⟩
  | _ => cases h

end MachineInstr

/-- The label `label` stands at place `n`. -/
def MachineCode.LabelAt (m : MachineCode) (label : Text) (n : Nat) : Prop :=
  ∃ x, m[n]? = some x ∧ x.op = .label ∧ x.name = label

namespace Instr

/-- The values that the operation of an instruction may read. -/
def IsRead (name : Operand → Text) (i : Instr) (value : Text) : Prop :=
  value = "0" ∨ value = "1" ∨ ∃ y ∈ i.uses, value = name y

/-- What the operation of an instruction at place `n` may consist of. -/
inductive Part (name : Operand → Text) (n : Nat) (i : Instr) : MachineInstr → Prop where
  | load {value : Text} (h : i.isShortBranch ∨ i.kind = .assign) (hvalue : i.IsRead name value) :
    Part name n i { op := .load, reg := name i.target, value }
  | arithmetic {op : Opcode} {left right : Text} (hop : op.isArithmetic) (h : i.isComputation)
      (hleft : i.IsRead name left) (hright : i.IsRead name right) :
    Part name n i { op, reg := name i.target, left, right }
  | compare {left right : Text} (hleft : i.IsRead name left) (hright : i.IsRead name right) :
    Part name n i { op := .cmp, left, right }
  | jumpWithin {op : Opcode} {d : Nat} (hop : op.isJump) (h : i.isShortBranch)
      (hd : d = 2 ∨ d = 4) :
    Part name n i { op, target := numberedLabel (n + d) }
  | jumpToLabel {op : Opcode} (hop : op.isJump) (h : i.kind.isJump)
      (hjmp : op = .jmp → i.kind = .jump) :
    Part name n i { op, target := i.label }
  | jumpToTarget {op : Opcode} (hop : op.isJump) (h : i.isComparison) (hjmp : op ≠ .jmp) :
    Part name n i { op, target := name i.target }
  | labelWithin {d : Nat} (h : i.isShortBranch) :
    Part name n i { op := .label, name := numberedLabel (n + d) }
  | label (h : i.kind = .label) : Part name n i { op := .label, name := i.label }
  | call : Part name n i { op := .call, target := i.func }
  | pop (h : i.kind = .call) : Part name n i { op := .pop, reg := name i.target }
  | ret : Part name n i { op := .ret }
  | print (h : i.kind = .print) : Part name n i { op := .print, reg := name i.source }
  | functionStart : Part name n i { op := .functionStart, name := i.func }
  | functionEnd : Part name n i { op := .functionEnd }

variable {name : Operand → Text} {n : Nat} {i : Instr} {x : MachineInstr} {y : Operand} {r : Text}

/-! ### Parts of an operation -/

theorem isRead_of_mem_uses (h : y ∈ i.uses) :
  i.IsRead name (name y)
  := .inr (.inr ⟨y, h, rfl⟩)

theorem part_of_mem_branch {jump : Opcode} {tested long short : Text}
    (hx : x ∈ MachineCode.branch n jump tested (name i.target) long short) (h : i.isShortBranch)
    (hjump : jump.isJump) (htested : i.IsRead name tested) (hlong : i.IsRead name long)
    (hshort : i.IsRead name short) :
  i.Part name n x
  := by
  simp only [MachineCode.branch, List.mem_cons, List.not_mem_nil, or_false] at hx
  obtain rfl | rfl | rfl | rfl | rfl | rfl | rfl := hx
  · exact .compare htested (.inl rfl)
  · exact .jumpWithin hjump h (.inl rfl)
  · exact .load (.inl h) hlong
  · exact .jumpWithin rfl h (.inr rfl)
  · exact .labelWithin h
  · exact .load (.inl h) hshort
  · exact .labelWithin h

theorem part_of_mem_comparison {jump : Opcode}
    (hx : x ∈ MachineCode.comparison jump (name i.target) (name i.left) (name i.right))
    (h : i.isComparison) (hjump : jump.isJump) (hjmp : jump ≠ .jmp)
    (hleft : i.IsRead name (name i.left)) (hright : i.IsRead name (name i.right)) :
  i.Part name n x
  := by
  simp only [MachineCode.comparison, List.mem_cons, List.not_mem_nil, or_false] at hx
  obtain rfl | rfl := hx
  · exact .compare hleft hright
  · exact .jumpToTarget hjump h hjmp

theorem part_of_mem_operation (hx : x ∈ i.operation name n) :
  i.Part name n x
  := by
  rw [operation] at hx
  cases hk : i.kind with
  | assign =>
      rw [hk] at hx
      dsimp only at hx
      split at hx
      · cases hx
      · obtain rfl := List.mem_singleton.mp hx
        exact .load (.inr hk) (isRead_of_mem_uses (by simp [uses, hk]))
  | binary op =>
      have hleft : i.IsRead name (name i.left) := isRead_of_mem_uses (by simp [uses, hk])
      have hright : i.IsRead name (name i.right) := isRead_of_mem_uses (by simp [uses, hk])
      rw [hk] at hx
      cases op with
      | add | sub | mul | div | mod =>
          obtain rfl := List.mem_singleton.mp hx
          exact .arithmetic rfl (by rw [isComputation, hk]) hleft hright
      | eq | ne | lt | gt | le | ge =>
          exact part_of_mem_comparison hx (by rw [isComparison, hk]) rfl (by decide) hleft
            hright
      | and =>
          exact part_of_mem_branch hx (by rw [isShortBranch, hk]) rfl hleft hright (.inl rfl)
      | or =>
          exact part_of_mem_branch hx (by rw [isShortBranch, hk]) rfl hleft hright (.inr (.inl rfl))
      | other => cases hx
  | unary op =>
      have hsource : i.IsRead name (name i.source) := isRead_of_mem_uses (by simp [uses, hk])
      rw [hk] at hx
      cases op with
      | not =>
          exact part_of_mem_branch hx (by rw [isShortBranch, hk]) rfl hsource (.inl rfl)
            (.inr (.inl rfl))
      | neg | other =>
          obtain rfl := List.mem_singleton.mp hx
          exact .arithmetic rfl (by rw [isComputation, hk]) (.inl rfl) hsource
  | jump =>
      rw [hk] at hx
      obtain rfl := List.mem_singleton.mp hx
      exact .jumpToLabel rfl (by rw [hk]; rfl) fun _ => hk
  | jumpIfFalse | jumpIfTrue =>
      have hcond : i.IsRead name (name i.cond) := isRead_of_mem_uses (by simp [uses, hk])
      rw [hk] at hx
      simp only [List.mem_cons, List.not_mem_nil, or_false] at hx
      obtain rfl | rfl := hx
      · exact .compare hcond (.inl rfl)
      · exact .jumpToLabel rfl (by rw [hk]; rfl) (by simp [hk])
  | call =>
      rw [hk] at hx
      simp only [List.mem_cons, List.not_mem_nil, or_false] at hx
      obtain rfl | rfl := hx
      · exact .call
      · exact .pop hk
  | label =>
      rw [hk] at hx
      obtain rfl := List.mem_singleton.mp hx
      exact .label hk
  | print =>
      rw [hk] at hx
      obtain rfl := List.mem_singleton.mp hx
      exact .print hk
  | ret | functionStart | functionEnd =>
      rw [hk] at hx
      obtain rfl := List.mem_singleton.mp hx
      constructor
  | other =>
      rw [hk] at hx
      cases hx

/-! ### Labels and jumps -/

theorem operation_of_isShortBranch (name : Operand → Text) (n : Nat) (h : i.isShortBranch) :
  ∃ jump tested target long short, (jump = .je ∨ jump = .jne)
    ∧ i.operation name n = MachineCode.branch n jump tested target long short
  := by
  rw [isShortBranch] at h
  split at h
  · next hkind =>
    rw [operation, hkind]
    exact ⟨.je, _, _, _, _, .inl rfl, rfl⟩
  · next hkind =>
    rw [operation, hkind]
    exact ⟨.jne, _, _, _, _, .inr rfl, rfl⟩
  · next hkind =>
    rw [operation, hkind]
    exact ⟨.je, _, _, _, _, .inl rfl, rfl⟩
  · cases h

/-- The labels of a short branch stand two places after those in their names. -/
theorem labelAt_operation_of_isShortBranch (h : i.isShortBranch) {label : Text} {k : Nat} :
  (i.operation name n).LabelAt label k
    ↔ ∃ d, (d = 2 ∨ d = 4) ∧ label = numberedLabel (n + d) ∧ k = d + 2
  := by
  obtain ⟨jump, tested, target, long, short, hjump, heq⟩ := i.operation_of_isShortBranch name n h
  rw [heq, MachineCode.LabelAt, MachineCode.branch]
  constructor
  · rintro ⟨x, hx, hop, rfl⟩
    match k, hx with
    | 0, hx | 2, hx | 3, hx | 5, hx =>
        obtain rfl := Option.some.inj hx
        cases hop
    | 1, hx =>
        obtain rfl := Option.some.inj hx
        obtain rfl | rfl := hjump
        · cases hop
        · cases hop
    | 4, hx =>
        obtain rfl := Option.some.inj hx
        use 2, .inl rfl
    | 6, hx =>
        obtain rfl := Option.some.inj hx
        use 4, .inr rfl
  · rintro ⟨d, rfl | rfl, rfl, rfl⟩
    · exact ⟨_, rfl, rfl, rfl⟩
    · exact ⟨_, rfl, rfl, rfl⟩

/-- An operation that is not a short branch has labels and unconditional jumps only for those of the
program. -/
theorem kind_of_mem_operation (h : i.isShortBranch = false) (hx : x ∈ i.operation name n) :
  (x.op = .label → i.kind = .label) ∧ (x.op = .jmp → i.kind = .jump)
  := by
  cases part_of_mem_operation hx with
  | arithmetic hop =>
      constructor
      · rintro rfl
        cases hop
      · rintro rfl
        cases hop
  | jumpToLabel hop _ hjmp =>
      refine ⟨?_, hjmp⟩
      rintro rfl
      cases hop
  | jumpToTarget hop _ hjmp =>
      refine ⟨?_, fun hop => absurd hop hjmp⟩
      rintro rfl
      cases hop
  | jumpWithin _ hshort | labelWithin hshort =>
      rw [h] at hshort
      cases hshort
  | label hkind => exact ⟨fun _ => hkind, nofun⟩
  | _ => exact ⟨nofun, nofun⟩

/-- An operation that is not a short branch has a label only if the instruction is that label. -/
theorem labelAt_operation (h : i.isShortBranch = false) {label : Text} {k : Nat} :
  (i.operation name n).LabelAt label k ↔ i.kind = .label ∧ label = i.label ∧ k = 0
  := by
  by_cases hkind : i.kind = .label
  · rw [operation, hkind]
    constructor
    · rintro ⟨x, hx, -, rfl⟩
      cases k with
      | zero =>
          obtain rfl := Option.some.inj hx
          use rfl
      | succ k => cases hx
    · rintro ⟨-, rfl, rfl⟩
      exact ⟨_, rfl, rfl, rfl⟩
  · constructor
    · rintro ⟨x, hx, hop, -⟩
      apply absurd ((kind_of_mem_operation h (List.mem_of_getElem? hx)).1 hop) hkind
    · rintro ⟨hlabel, -⟩
      contradiction

/-- A jump of an operation leads to a label of its own or to that of the instruction, unless it is
that of a comparison, which names the target. -/
theorem target_of_isJump (hx : x ∈ i.operation name n) (hjump : x.op.isJump) :
  i.isShortBranch ∧ (x.target = numberedLabel (n + 2) ∨ x.target = numberedLabel (n + 4))
    ∨ i.kind.isJump ∧ x.target = i.label
    ∨ i.isComparison ∧ x.target = name i.target
  := by
  cases part_of_mem_operation hx with
  | arithmetic hop => apply absurd hjump (MachineInstr.access_of_isArithmetic hop).2.2
  | jumpWithin _ h hd =>
      obtain rfl | rfl := hd
      · exact .inl ⟨h, .inl rfl⟩
      · exact .inl ⟨h, .inr rfl⟩
  | jumpToLabel _ h => exact .inr (.inl ⟨h, rfl⟩)
  | jumpToTarget _ h => exact .inr (.inr ⟨h, rfl⟩)
  | _ => cases hjump

/-- The operation of a jump ends with a jump to the label. -/
theorem operation_of_isJump (name : Operand → Text) (n : Nat) (h : i.kind.isJump) :
  ∃ front x, i.operation name n = front ++ [x] ∧ x.op.isJump ∧ x.target = i.label
    ∧ (i.kind = .jump → x.op = .jmp) ∧ ∀ y ∈ front, y.op ≠ .jmp
  := by
  rw [operation]
  cases hk : i.kind with
  | jump => exact ⟨[], _, rfl, rfl, rfl, fun _ => rfl, by simp⟩
  | jumpIfFalse | jumpIfTrue => exact ⟨[_], _, rfl, rfl, rfl, by simp, by simp⟩
  | _ =>
      rw [hk] at h
      cases h

/-! ### Reads and writes -/

theorem name_target_ne_of_mem_operation (hx : x ∈ i.operation name n) (h : i.kind = .assign) :
  name i.target ≠ name i.source
  := by
  intro heq
  rw [operation, h] at hx
  dsimp only at hx
  rw [if_pos heq] at hx
  cases hx

/-- An operation writes the target of a computation or of an assignment. -/
theorem writes_operation (hx : x ∈ i.operation name n) (hr : r ∈ x.writes) :
  r = name i.target ∧ (i.isComputation ∨ i.kind = .assign ∧ name i.target ≠ name i.source)
  := by
  cases part_of_mem_operation hx with
  | load h =>
      obtain rfl := List.mem_singleton.mp hr
      refine ⟨rfl, h.imp isComputation_of_isShortBranch fun hkind => ⟨hkind, ?_⟩⟩
      apply name_target_ne_of_mem_operation hx hkind
  | arithmetic hop h =>
      rw [(MachineInstr.access_of_isArithmetic hop).2.1] at hr
      exact ⟨List.mem_singleton.mp hr, .inl h⟩
  | pop h => exact ⟨List.mem_singleton.mp hr, .inl (by rw [isComputation, h])⟩
  | jumpWithin hop | jumpToLabel hop | jumpToTarget hop =>
      rw [(MachineInstr.access_of_isJump hop).2] at hr
      cases hr
  | _ => cases hr

theorem isRead_of_mem_reads (hx : x ∈ i.operation name n) (hr : r ∈ x.reads) :
  i.IsRead name r
  := by
  cases part_of_mem_operation hx with
  | load _ hvalue =>
      obtain rfl := List.mem_singleton.mp hr
      exact hvalue
  | arithmetic hop _ hleft hright =>
      rw [(MachineInstr.access_of_isArithmetic hop).1] at hr
      obtain rfl | rfl : r = _ ∨ r = _ := by simpa using hr
      · exact hleft
      · exact hright
  | compare hleft hright =>
      obtain rfl | rfl : r = _ ∨ r = _ := by simpa [MachineInstr.reads] using hr
      · exact hleft
      · exact hright
  | print h =>
      obtain rfl := List.mem_singleton.mp hr
      exact isRead_of_mem_uses (by simp [uses, h])
  | jumpWithin hop | jumpToLabel hop | jumpToTarget hop =>
      rw [(MachineInstr.access_of_isJump hop).1] at hr
      cases hr
  | _ => cases hr

/-- An operation reads what the instruction uses and the values 0 and 1. -/
theorem reads_operation (hx : x ∈ i.operation name n) (hr : r ∈ x.reads) :
  r = "0" ∨ r = "1"
    ∨ (∃ y ∈ i.uses, r = name y) ∧ (i.kind = .assign → name i.target ≠ name i.source)
  := (isRead_of_mem_reads hx hr).imp_right
    (Or.imp_right fun huse => ⟨huse, name_target_ne_of_mem_operation hx⟩)

/-- What is used is read, unless it is pushed or assigned to itself, and no jump comes before. -/
theorem exists_read_operation (hy : y ∈ i.uses) (hoperator : ∀ code, i.kind ≠ .binary (.other code))
    (hassign : i.kind = .assign → name i.target ≠ name i.source) (hpushed : (y, true) ∉ i.fetched) :
  ∃ k x, (i.operation name n)[k]? = some x ∧ name y ∈ x.reads
    ∧ ∀ x' ∈ (i.operation name n).take k, x'.op ≠ .jmp
  := by
  rw [uses] at hy
  rw [fetched] at hpushed
  rw [operation]
  cases hk : i.kind with
  | assign =>
      rw [hk] at hy
      obtain rfl := List.mem_singleton.mp hy
      dsimp only
      rw [if_neg (hassign hk)]
      exact ⟨0, _, rfl, List.mem_cons_self, by simp⟩
  | binary op =>
      rw [hk] at hy
      have hop : ∀ code, op ≠ .other code := fun code h => hoperator code (hk.trans (congrArg _ h))
      obtain rfl | rfl : y = i.left ∨ y = i.right := by simpa using hy
      · cases op with
        | other code => cases hop code rfl
        | _ => exact ⟨0, _, rfl, List.mem_cons_self, by simp⟩
      · cases op with
        | other code => cases hop code rfl
        | and | or =>
            exact ⟨2, _, rfl, List.mem_cons_self, by simp [MachineCode.binary, MachineCode.branch]⟩
        | _ => exact ⟨0, _, rfl, List.mem_cons_of_mem _ List.mem_cons_self, by simp⟩
  | unary op =>
      rw [hk] at hy
      obtain rfl := List.mem_singleton.mp hy
      cases op with
      | not => exact ⟨0, _, rfl, List.mem_cons_self, by simp⟩
      | neg | other => exact ⟨0, _, rfl, List.mem_cons_of_mem _ List.mem_cons_self, by simp⟩
  | jumpIfFalse | jumpIfTrue | print =>
      rw [hk] at hy
      obtain rfl := List.mem_singleton.mp hy
      exact ⟨0, _, rfl, List.mem_cons_self, by simp⟩
  | call =>
      rw [hk] at hy hpushed
      apply absurd (List.mem_cons_of_mem _ (List.mem_map_of_mem hy)) hpushed
  | ret =>
      rw [hk] at hy hpushed
      dsimp only at hy hpushed
      split at hy
      · next hvalue =>
        rw [if_pos hvalue, List.mem_singleton.mp hy] at hpushed
        apply absurd List.mem_cons_self hpushed
      · cases hy
  | _ =>
      rw [hk] at hy
      cases hy

end Instr

end ThreeAddress
