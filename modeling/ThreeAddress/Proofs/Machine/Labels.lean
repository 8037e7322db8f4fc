import ThreeAddress.Proofs.Code.WellFormed
import ThreeAddress.Proofs.Machine.Operation

/-!
# The labels of machine code

Machine code has the labels of the program and two of its own for every short branch.  A label of a
short branch is named after a place, and stands two places after it.  So no two labels of short
branches are the same, and the labels of the machine code are distinct exactly if no short branch
begins so early that its labels are among those that the program has anyway.
-/

namespace ThreeAddress

namespace MachineCode

/-- The names of the labels, in order. -/
def labelNames (m : MachineCode) : List Text := (m.filter (·.op = .label)).map (·.name)

theorem mem_labelNames_iff {m : MachineCode} {label : Text} :
  label ∈ m.labelNames ↔ ∃ n, m.LabelAt label n
  := by
  simp only [labelNames, List.mem_map, List.mem_filter, decide_eq_true_eq]
  constructor
  · rintro ⟨x, ⟨hx, hop⟩, hname⟩
    obtain ⟨n, hn⟩ := List.mem_iff_getElem?.mp hx
    use n, x
  · rintro ⟨n, x, hn, hop, hname⟩
    use x, ⟨List.mem_of_getElem? hn, hop⟩

/-- The labels are distinct exactly if each of them stands at one place only. -/
theorem nodup_labelNames_iff {m : MachineCode} :
  m.labelNames.Nodup ↔ ∀ label n n', m.LabelAt label n → m.LabelAt label n' → n = n'
  := by
  rw [labelNames, List.Nodup, List.pairwise_map, List.pairwise_filter, List.pairwise_iff_getElem]
  constructor
  · intro h label n n' ⟨x, hx, hop, hname⟩ ⟨x', hx', hop', hname'⟩
    obtain ⟨hn, rfl⟩ := List.getElem?_eq_some_iff.mp hx
    obtain ⟨hn', rfl⟩ := List.getElem?_eq_some_iff.mp hx'
    obtain hlt | heq | hlt := Nat.lt_trichotomy n n'
    · apply absurd (hname.trans hname'.symm)
      apply h n n' hn hn' hlt (decide_eq_true hop) (decide_eq_true hop')
    · apply heq
    · apply absurd (hname'.trans hname.symm)
      apply h n' n hn' hn hlt (decide_eq_true hop') (decide_eq_true hop)
  · intro h n n' hn hn' hlt hop hop' hname
    apply Nat.ne_of_lt hlt
    apply h m[n].name n n'
    · use m[n], List.getElem?_eq_getElem hn, of_decide_eq_true hop
    · use m[n'], List.getElem?_eq_getElem hn', of_decide_eq_true hop', hname.symm

end MachineCode

/-! ### The labels of the machine code of a program -/

namespace Program

variable {table : Option SymbolTable} {p : Program} {i : Instr} {label : Text} {j n : Nat}

/-- The labels of machine code are those of the operations. -/
theorem labelAt_machineCode_iff :
  (p.machineCode table).LabelAt label n
    ↔ ∃ j i k, p[j]? = some i ∧ n = p.operationPlace table j i + k
      ∧ (p.operationPart table j i).LabelAt label k
  := by
  constructor
  · rintro ⟨x, hx, hop, hname⟩
    obtain ⟨j, i, hi, ⟨k, rfl, hk⟩ | ⟨k, rfl, hk⟩⟩ := exists_part hx
    · obtain hload | hpush := Lowering.op_of_mem_fetchCode (List.mem_of_getElem? hk)
      · rw [hop] at hload
        cases hload
      · rw [hop] at hpush
        cases hpush
    · use j, i, k, hi, rfl, x
  · rintro ⟨j, i, k, hi, rfl, x, hk, hop, hname⟩
    use x, getElem?_operationPart hi hk

/-- A label of the program is an operation of its own. -/
theorem LabelAt.operationPart (table : Option SymbolTable) (h : p.LabelAt label j) :
  ∃ i, p[j]? = some i ∧ i.isShortBranch = false ∧ (p.operationPart table j i).LabelAt label 0
  := by
  obtain ⟨i, hi, hkind, rfl⟩ := h
  have hshort : i.isShortBranch = false := by rw [Instr.isShortBranch, hkind]
  use i, hi, hshort
  apply (Instr.labelAt_operation hshort).mpr
  use hkind

/-- A label of machine code is one of the program, or of a short branch. -/
theorem labelAt_machineCode_cases (h : (p.machineCode table).LabelAt label n) :
  (∃ j i, p.LabelAt label j ∧ p[j]? = some i ∧ n = p.operationPlace table j i)
    ∨ ∃ j i d, p[j]? = some i ∧ i.isShortBranch ∧ (d = 2 ∨ d = 4)
      ∧ label = numberedLabel (p.operationPlace table j i + d)
      ∧ n = p.operationPlace table j i + d + 2
  := by
  obtain ⟨j, i, k, hi, rfl, hk⟩ := labelAt_machineCode_iff.mp h
  by_cases hshort : i.isShortBranch
  · right
    obtain ⟨d, hd, rfl, rfl⟩ := (Instr.labelAt_operation_of_isShortBranch hshort).mp hk
    use j, i, d, hi, hshort, hd, rfl
    omega
  · left
    obtain ⟨hkind, rfl, rfl⟩ := (Instr.labelAt_operation (Bool.eq_false_iff.mpr hshort)).mp hk
    exact ⟨j, i, ⟨i, hi, hkind, rfl⟩, hi, rfl⟩

/-- Labels of different instructions stand at different places. -/
theorem eq_of_labelAt_operationPart {j j' k k' : Nat} {i i' : Instr} {label label' : Text}
    (hi : p[j]? = some i) (hi' : p[j']? = some i')
    (h : (p.operationPart table j i).LabelAt label k)
    (h' : (p.operationPart table j' i').LabelAt label' k')
    (heq : p.operationPlace table j i + k = p.operationPlace table j' i' + k') :
  j = j'
  := by
  obtain ⟨x, hx, -⟩ := h
  obtain ⟨x', hx', -⟩ := h'
  obtain ⟨hle, hlt⟩ := place_of_operationPart hi hx
  obtain ⟨hle', hlt'⟩ := place_of_operationPart hi' hx'
  rw [heq] at hle hlt
  apply eq_of_place hle hlt hle' hlt'

/-- If the labels of the program are distinct, then those of its machine code are exactly if no
short branch takes a label of the program. -/
theorem nodup_machineCode_iff (table : Option SymbolTable) (hp : p.labelNames.Nodup) :
  (p.machineCode table).labelNames.Nodup
    ↔ ∀ j i, p[j]? = some i → i.isShortBranch → ∀ d, d = 2 ∨ d = 4 →
      numberedLabel (p.operationPlace table j i + d) ∉ p.labelNames
  := by
  rw [MachineCode.nodup_labelNames_iff]
  constructor
  · intro h j i hi hshort d hd hmem
    obtain ⟨j', hj'⟩ := exists_labelAt hmem
    obtain ⟨i', hi', hshort', hlabel'⟩ := hj'.operationPart table
    have hlabel : (p.operationPart table j i).LabelAt _ (d + 2) :=
      (Instr.labelAt_operation_of_isShortBranch hshort).mpr ⟨d, hd, rfl, rfl⟩
    have heq := h _ _ _ (labelAt_machineCode_iff.mpr ⟨j, i, _, hi, rfl, hlabel⟩)
      (labelAt_machineCode_iff.mpr ⟨j', i', _, hi', rfl, hlabel'⟩)
    obtain rfl := eq_of_labelAt_operationPart hi hi' hlabel hlabel' heq
    obtain rfl := Option.some.inj (hi.symm.trans hi')
    rw [hshort] at hshort'
    cases hshort'
  · intro h label n n' hn hn'
    obtain ⟨j, i, hj, hi, rfl⟩ | ⟨j, i, d, hi, hshort, hd, rfl, rfl⟩ := labelAt_machineCode_cases hn
    · obtain ⟨j', i', hj', hi', rfl⟩ | ⟨j', i', d, hi', hshort, hd, rfl, rfl⟩ :=
        labelAt_machineCode_cases hn'
      · obtain rfl := hj.unique hp hj'
        obtain rfl := Option.some.inj (hi.symm.trans hi')
        rfl
      · apply absurd hj.mem_labelNames (h j' i' hi' hshort d hd)
    · obtain ⟨j', i', hj', hi', rfl⟩ | ⟨j', i', d', hi', hshort', hd', heq, rfl⟩ :=
        labelAt_machineCode_cases hn'
      · apply absurd hj'.mem_labelNames (h j i hi hshort d hd)
      · rw [numberedLabel_injective heq]

/-- A jump of an operation leads to a label of the operation or of the program, unless it is that of
a comparison, which names the target. -/
theorem target_cases (hp : p.WellFormed) (hi : p[j]? = some i) {x : MachineInstr}
    (hx : x ∈ p.operationPart table j i) (hjump : x.op.isJump) :
  (i.isShortBranch ∧ ∃ k, (p.operationPart table j i).LabelAt x.target k)
    ∨ (i.kind.isJump ∧ x.target = i.label ∧ ∃ j', p.LabelAt i.label j')
    ∨ i.isComparison ∧ x.target = p.nameAt table j i i.target
  := by
  obtain ⟨hshort, htarget⟩ | ⟨hkind, htarget⟩ | hcomparison := Instr.target_of_isJump hx hjump
  · left
    use hshort
    obtain htarget | htarget := htarget
    · use 4
      apply (Instr.labelAt_operation_of_isShortBranch hshort).mpr ⟨2, .inl rfl, htarget, rfl⟩
    · use 6
      apply (Instr.labelAt_operation_of_isShortBranch hshort).mpr ⟨4, .inr rfl, htarget, rfl⟩
  · right
    left
    use hkind, htarget
    apply exists_labelAt ((hp.complete i (List.mem_of_getElem? hi)).label hkind).1
  · right
    right
    apply hcomparison

/-- The code of a label begins with it. -/
theorem LabelAt.machinePlace (table : Option SymbolTable) (h : p.LabelAt label j) :
  (p.machineCode table).LabelAt label (p.machinePlace table j)
  := by
  obtain ⟨i, hi, -, hlabel⟩ := h.operationPart table
  have hplace : p.operationPlace table j i = p.machinePlace table j := by
    obtain ⟨i', hi', hkind, -⟩ := h
    obtain rfl := Option.some.inj (hi.symm.trans hi')
    rw [operationPlace, Instr.fetched, hkind]
    rfl
  rw [← hplace]
  apply labelAt_machineCode_iff.mpr ⟨j, i, 0, hi, rfl, hlabel⟩

/-- The machine instruction at place `n` belongs to a comparison. -/
def OfComparison (table : Option SymbolTable) (p : Program) (n : Nat) : Prop :=
  ∃ j i, p[j]? = some i ∧ i.isComparison ∧ p.machinePlace table j ≤ n
    ∧ n < p.machinePlace table (j + 1)

/-- A jump that does not belong to a comparison leads to a label of the machine code. -/
theorem target_mem_labelNames (hp : p.WellFormed) {x : MachineInstr}
    (hx : (p.machineCode table)[n]? = some x) (hjump : x.op.isJump)
    (hn : ¬ p.OfComparison table n) :
  x.target ∈ (p.machineCode table).labelNames
  := by
  rw [MachineCode.mem_labelNames_iff]
  obtain ⟨j, i, hi, ⟨k, rfl, hk⟩ | ⟨k, rfl, hk⟩⟩ := exists_part hx
  · apply absurd hjump (Lowering.not_isJump_of_mem_fetchCode (List.mem_of_getElem? hk))
  · obtain ⟨-, k', hlabel⟩ | ⟨-, htarget, j', hj'⟩ | ⟨hcomparison, -⟩ :=
      target_cases hp hi (List.mem_of_getElem? hk) hjump
    · use p.operationPlace table j i + k'
      apply labelAt_machineCode_iff.mpr ⟨j, i, k', hi, rfl, hlabel⟩
    · rw [htarget]
      use p.machinePlace table j'
      apply hj'.machinePlace
    · apply absurd _ hn
      use j, i, hi, hcomparison
      apply place_of_operationPart hi hk

end Program

/-- The labels of machine code are numbered. -/
theorem numbered_of_labelAt {program : List Stmt} {table₀ table₁ : SymbolTable}
    {table : Option SymbolTable} {p : Program} (hp : generate program table₀ = (.ok p, table₁))
    {label : Text} {n : Nat} (h : (p.machineCode table).LabelAt label n) :
  ∃ k, label = numberedLabel k
  := by
  obtain ⟨j, i, hj, -, -⟩ | ⟨j, i, d, -, -, -, hlabel, -⟩ := Program.labelAt_machineCode_cases h
  · have hmem := (labelNames_perm_of_generate hp).mem_iff.mp hj.mem_labelNames
    obtain ⟨k, -, rfl⟩ := List.mem_map.mp hmem
    use k
  · exact ⟨_, hlabel⟩

/-- Every jump of machine code, but for those of comparisons, leads to a label.  The labels are
distinct, and these jumps lead to labels that stand at one place only, exactly if each short branch
begins so late that it does not take a label of the program. -/
theorem machine_labels_distinct_iff {program : List Stmt} {table₀ table : SymbolTable} {p : Program}
    (hp : generate program table₀ = (.ok p, table)) :
  ∃ m, p.lower (some table) = .ok m
    ∧ (∀ n x, m[n]? = some x → x.op.isJump → ¬ p.OfComparison (some table) n →
      x.target ∈ m.labelNames)
    ∧ ((m.labelNames.Nodup
        ∧ ∀ n x, m[n]? = some x → x.op.isJump → ¬ p.OfComparison (some table) n →
          m.labelNames.count x.target = 1)
      ↔ ∀ j i, p[j]? = some i → i.isShortBranch →
        p.labelNames.length ≤ p.operationPlace (some table) j i + 2)
  := by
  have hwell := wellFormed_of_generate hp
  have htargets : ∀ n x, (p.machineCode (some table))[n]? = some x → x.op.isJump →
      ¬ p.OfComparison (some table) n → x.target ∈ (p.machineCode (some table)).labelNames :=
    fun n x => Program.target_mem_labelNames hwell
  use p.machineCode (some table), Program.lower_eq fun i hi => (hwell.complete i hi).known
  use htargets
  have hnodup := Program.nodup_machineCode_iff (some table) hwell.labels
  constructor
  · rintro ⟨h, -⟩ j i hi hshort
    have hmem := hnodup.mp h j i hi hshort 2 (.inl rfl)
    rw [numberedLabel_mem_labelNames_iff hp] at hmem
    omega
  · intro h
    have hdistinct := hnodup.mpr fun j i hi hshort d hd => by
      rw [numberedLabel_mem_labelNames_iff hp]
      have := h j i hi hshort
      omega
    use hdistinct
    intro n x hx hjump hn
    apply List.count_eq_one_of_mem hdistinct (htargets n x hx hjump hn)

/-- Two loops that are not entered. -/
def idleLoops : List Stmt :=
  [.while {} (.literal {} .boolean "false") [], .while {} (.literal {} .boolean "false") []]

/-- A negation that is printed. -/
def printedNegation : Stmt := .print {} (.unary {} .not (.literal {} .boolean "true"))

def idleLoopsCode : Program :=
  [{ kind := .label, label := "L0" },
   { kind := .jumpIfFalse, cond := .literal .boolean "false", label := "L1" },
   { kind := .jump, label := "L0" },
   { kind := .label, label := "L1" },
   { kind := .label, label := "L2" },
   { kind := .jumpIfFalse, cond := .literal .boolean "false", label := "L3" },
   { kind := .jump, label := "L2" },
   { kind := .label, label := "L3" }]

def negationCode : Program :=
  [{ kind := .unary .not, target := .ofTemp 0, source := .literal .boolean "true" },
   { kind := .print, source := .ofTemp 0 }]

def negationAfterLoopsCode : Program := idleLoopsCode ++ negationCode

theorem negationAfterLoops_labels_distinct :
  ∃ table m, generate (idleLoops ++ [printedNegation]) {} = (.ok negationAfterLoopsCode, table)
    ∧ negationAfterLoopsCode.lower (some table) = .ok m
    ∧ m.labelNames = ["L0", "L1", "L2", "L3", "L14", "L16"]
    ∧ m.labelNames.Nodup
  := by
  have hcode : generate (idleLoops ++ [printedNegation]) {}
      = (.ok negationAfterLoopsCode, (generate (idleLoops ++ [printedNegation]) {}).2) := by
    apply Prod.ext
    · decide +kernel
    · rfl
  have hlate : ∀ j, (negationAfterLoopsCode.get j).isShortBranch →
      negationAfterLoopsCode.labelNames.length
        ≤ negationAfterLoopsCode.operationPlace
          (some (generate (idleLoops ++ [printedNegation]) {}).2) j
          (negationAfterLoopsCode.get j) + 2 := by
    decide +kernel
  obtain ⟨m, hm, -, hiff⟩ := machine_labels_distinct_iff hcode
  have hdistinct := hiff.mpr fun j i hi => by
    obtain ⟨hlt, rfl⟩ := List.getElem?_eq_some_iff.mp hi
    apply hlate ⟨j, hlt⟩
  refine ⟨_, m, hcode, hm, ?_, hdistinct.1⟩
  obtain rfl := Except.ok.inj hm
  decide +kernel

def negationBeforeLoopsCode : Program := negationCode ++ idleLoopsCode

/-- The short branch of a negation before two loops takes the label at the end of the second one. -/
theorem negationBeforeLoops_takes_label :
  ∃ table m, generate (printedNegation :: idleLoops) {} = (.ok negationBeforeLoopsCode, table)
    ∧ negationBeforeLoopsCode.lower (some table) = .ok m
    ∧ m.labelNames = ["L3", "L5", "L0", "L1", "L2", "L3"]
    ∧ ¬ m.labelNames.Nodup
    ∧ { op := .je, target := "L3" } ∈ m
    ∧ m.labelNames.count (numberedLabel 3) = 2
  := by
  have hcode : generate (printedNegation :: idleLoops) {}
      = (.ok negationBeforeLoopsCode, (generate (printedNegation :: idleLoops) {}).2) := by
    apply Prod.ext
    · decide +kernel
    · rfl
  refine ⟨_, _, hcode, rfl, ?_, ?_, ?_, ?_⟩
  · decide +kernel
  · decide +kernel
  · decide +kernel
  · decide +kernel

end ThreeAddress
