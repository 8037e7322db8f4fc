import ThreeAddress.Proofs.Flow.Liveness
import ThreeAddress.Proofs.Machine.Access
import ThreeAddress.Proofs.Machine.Labels

/-!
# Registers that are read before they are written

Control goes from a machine instruction to the next one and from a jump to its label.  A register is
unwritten at a place if control can come there from the start without passing an instruction that
writes the register.

An operand is loaded where it is mentioned first in the listing.  So its register is written
whenever it is read exactly if there is no way around that place, and around all assignments to the
operand, to another instruction that reads the operand.
-/

namespace ThreeAddress

namespace MachineCode

/-- Control can go from place `n` to place `n'`. -/
def Follows (m : MachineCode) (n n' : Nat) : Prop :=
  ∃ x, m[n]? = some x
    ∧ (x.op ≠ .jmp ∧ n' = n + 1 ∨ x.op.isJump ∧ m.LabelAt x.target n')

/-- Control can come from the start to a place on a way on which the register `r` is not written. -/
inductive Unwritten (m : MachineCode) (r : Text) : Nat → Prop
  | start : Unwritten m r 0
  | step {n n' x} : Unwritten m r n → m[n]? = some x → r ∉ x.writes → m.Follows n n' →
      Unwritten m r n'

variable {m : MachineCode} {r : Text} {n : Nat}

/-- Control goes through code without unconditional jumps. -/
theorem Unwritten.through (h : m.Unwritten r n) (code : MachineCode)
    (hcode : ∀ k x, code[k]? = some x → m[n + k]? = some x) (hjump : ∀ x ∈ code, x.op ≠ .jmp)
    (hwrites : ∀ x ∈ code, r ∉ x.writes) :
  m.Unwritten r (n + code.length)
  := by
  induction code generalizing n with
  | nil => apply h
  | cons x code ih =>
      obtain ⟨hx, hjump⟩ := List.forall_mem_cons.mp hjump
      obtain ⟨hr, hwrites⟩ := List.forall_mem_cons.mp hwrites
      have hn := hcode 0 x rfl
      have hnext := h.step hn hr ⟨x, hn, .inl ⟨hx, rfl⟩⟩
      have htail : ∀ k x, code[k]? = some x → m[n + 1 + k]? = some x := by
        intro k x hk
        rw [Nat.add_assoc, Nat.add_comm 1 k]
        apply hcode (k + 1) x hk
      rw [List.length_cons, Nat.add_comm code.length 1, ← Nat.add_assoc]
      apply ih hnext htail hjump hwrites

end MachineCode

namespace Program

/-- Control can come from the start of the program to a place on a way on which the operand is
neither mentioned for the first time nor assigned. -/
inductive Bypasses (p : Program) (o : Operand) : Nat → Prop
  | start : Bypasses p o 0
  | step {j j' i} : Bypasses p o j → p[j]? = some i → ¬ p.FirstMention o j → ¬ i.Assigns o →
      (Graph.build p).Follows j j' → Bypasses p o j'

variable {program : List Stmt} {table₀ table₁ : SymbolTable} {table : Option SymbolTable}
variable {p : Program} {i : Instr} {o : Operand} {r : Text} {j k n : Nat} {x : MachineInstr}

/-! ### From the program to its machine code -/

section

variable (hi : p[j]? = some i) (hwrites : ∀ x ∈ p.piece table j i, r ∉ x.writes)
variable (hstart : (p.machineCode table).Unwritten r (p.machinePlace table j))
include hi hwrites hstart

/-- Control goes through the code of an instruction up to an unconditional jump. -/
theorem unwritten_take (hk : k ≤ (p.piece table j i).length)
    (hjump : ∀ x ∈ (p.piece table j i).take k, x.op ≠ .jmp) :
  (p.machineCode table).Unwritten r (p.machinePlace table j + k)
  := by
  have htake : ∀ l x, ((p.piece table j i).take k)[l]? = some x →
      (p.machineCode table)[p.machinePlace table j + l]? = some x := by
    intro l x hx
    rw [List.getElem?_take] at hx
    split at hx
    · apply getElem?_machineCode hi hx
    · cases hx
  have h := hstart.through _ htake hjump fun x hx => hwrites x (List.mem_of_mem_take hx)
  rw [List.length_take_of_le hk] at h
  apply h

/-- Control goes through the fetching and the first machine instructions of the operation. -/
theorem unwritten_operation {front rest : MachineCode}
    (hoperation : p.operationPart table j i = front ++ rest) (hjump : ∀ x ∈ front, x.op ≠ .jmp) :
  (p.machineCode table).Unwritten r (p.operationPlace table j i + front.length)
  := by
  rw [operationPlace_eq, Nat.add_assoc, ← List.length_append]
  apply unwritten_take hi hwrites hstart
  · rw [piece, hoperation, ← List.append_assoc]
    apply (List.prefix_append _ rest).length_le
  · rw [piece, hoperation, ← List.append_assoc, List.take_left, List.forall_mem_append]
    use fun x => Lowering.op_ne_jmp_of_mem_fetchCode

/-- Control goes through a short branch. -/
theorem unwritten_shortBranch (hshort : i.isShortBranch) :
  (p.machineCode table).Unwritten r (p.machinePlace table (j + 1))
  := by
  obtain ⟨jump, tested, target, long, short, hjump, hoperation⟩ :=
    i.operation_of_isShortBranch (p.nameAt table j i) (p.operationPlace table j i) hshort
  rw [← operationPart] at hoperation
  have hat : ∀ k x, (p.operationPart table j i)[k]? = some x →
      (p.machineCode table)[p.operationPlace table j i + k]? = some x ∧ r ∉ x.writes := by
    intro k x hx
    use getElem?_operationPart hi hx
    apply hwrites x (List.mem_append_right _ (List.mem_of_getElem? hx))
  rw [hoperation] at hat
  have hfront : ∀ x ∈ (MachineCode.branch (p.operationPlace table j i) jump tested target long
      short).take 3, x.op ≠ .jmp := by
    obtain rfl | rfl := hjump
    · simp [MachineCode.branch]
    · simp [MachineCode.branch]
  -- the way leads past the conditional jump and over the second half of the branch
  have hskip : (p.machineCode table).Unwritten r (p.operationPlace table j i + 3) :=
    unwritten_operation hi hwrites hstart (hoperation.trans (List.take_append_drop 3 _).symm) hfront
  obtain ⟨hjmp, hjmpWrites⟩ := hat 3 _ rfl
  obtain ⟨hlabel, hlabelWrites⟩ := hat 6 _ rfl
  have hend : (p.machineCode table).Unwritten r (p.operationPlace table j i + 6) :=
    hskip.step hjmp hjmpWrites ⟨_, hjmp, .inr ⟨rfl, _, hlabel, rfl, rfl⟩⟩
  rw [machinePlace_succ_eq table hi, hoperation]
  apply hend.step hlabel hlabelWrites ⟨_, hlabel, .inl ⟨by simp, rfl⟩⟩

/-- Control goes on after an instruction that is not an unconditional jump. -/
theorem unwritten_next (hkind : i.kind ≠ .jump) :
  (p.machineCode table).Unwritten r (p.machinePlace table (j + 1))
  := by
  by_cases hshort : i.isShortBranch
  · apply unwritten_shortBranch hi hwrites hstart hshort
  · rw [machinePlace_succ_eq table hi]
    apply unwritten_operation hi hwrites hstart (List.append_nil _).symm
    intro x hx hop
    apply hkind ((Instr.kind_of_mem_operation (Bool.eq_false_iff.mpr hshort) hx).2 hop)

/-- Control goes from a jump to the places of its label. -/
theorem unwritten_jump (hjump : i.kind.isJump) (hlabel : (p.machineCode table).LabelAt i.label n) :
  (p.machineCode table).Unwritten r n
  := by
  obtain ⟨front, x, hoperation, hx, htarget, -, hfront⟩ :=
    i.operation_of_isJump (p.nameAt table j i) (p.operationPlace table j i) hjump
  rw [← operationPart] at hoperation
  have hat : (p.operationPart table j i)[front.length]? = some x := by simp [hoperation]
  have hplace := getElem?_operationPart hi hat
  rw [← htarget] at hlabel
  apply (unwritten_operation hi hwrites hstart hoperation hfront).step hplace _
    ⟨x, hplace, .inr ⟨hx, hlabel⟩⟩
  apply hwrites x (List.mem_append_right _ (List.mem_of_getElem? hat))

end

/-- Where the operand is bypassed in the program, its register is unwritten in the machine code. -/
theorem Owns.unwritten_of_bypasses (h : p.Owns table o r) (hp : ∀ i ∈ p, i.Made)
    (hb : p.Bypasses o j) :
  (p.machineCode table).Unwritten r (p.machinePlace table j)
  := by
  induction hb with
  | start => apply MachineCode.Unwritten.start
  | @step j j' i _ hi hfirst hassigns hfollows ih =>
      have hwrites : ∀ x ∈ p.piece table j i, r ∉ x.writes := by
        intro x hx hr
        obtain hj | hj := h.firstMention_or_assigns hp hi hx hr
        · apply hfirst hj
        · apply hassigns hj
      obtain ⟨i', hi', hnext | ⟨hjump, hlabel⟩⟩ := Graph.follows_cases_of_kind hfollows
      · obtain rfl := Option.some.inj (hi.symm.trans hi')
        rw [hnext.2]
        apply unwritten_next hi hwrites ih hnext.1
      · obtain rfl := Option.some.inj (hi.symm.trans hi')
        apply unwritten_jump hi hwrites ih hjump
        apply (labelIndex?_eq_some_iff.mp hlabel).1.machinePlace

/-! ### From machine code to the program -/

/-- No temporary has the name of a label. -/
theorem numberedLabel_ne_ofTemp (n k : Nat) :
  numberedLabel n ≠ (Operand.ofTemp k).text
  := by
  intro h
  have hhead : (some 76 : Option UInt8) = some 116 := congrArg List.head? h
  cases hhead

/-- Place `n` of the machine code lies in the code of an instruction to which the operand `o` is
bypassed, and the register `r` is not written before it in that code. -/
def Inside (table : Option SymbolTable) (p : Program) (o : Operand) (r : Text) (n : Nat) : Prop :=
  ∃ j i k, p[j]? = some i ∧ p.Bypasses o j ∧ n = p.machinePlace table j + k
    ∧ k < (p.piece table j i).length ∧ ∀ x ∈ (p.piece table j i).take k, r ∉ x.writes

section

variable (h : p.Owns table o r)
include h

/-- Control goes on after an instruction whose code does not write the register. -/
theorem Owns.bypasses_next (hi : p[j]? = some i) (hb : p.Bypasses o j)
    (hwrites : ∀ x ∈ p.piece table j i, r ∉ x.writes) (hkind : i.kind ≠ .jump)
    (hlt : j + 1 < p.length) :
  p.Bypasses o (j + 1)
  := by
  obtain ⟨hfirst, hassigns⟩ := h.not_firstMention_of_not_writes hi hwrites
  apply hb.step hi hfirst hassigns (Graph.follows_next hi hkind hlt)

/-- Where the code of an instruction begins to which the operand is bypassed, control is inside the
code of one, for nothing is written for the instructions in between. -/
theorem Owns.inside_machinePlace (hb : p.Bypasses o j)
    (hn : p.machinePlace table j < (p.machineCode table).length) :
  p.Inside table o r (p.machinePlace table j)
  := by
  induction hleft : p.length - j generalizing j with
  | zero =>
      have := lt_length_of_machinePlace_lt hn
      omega
  | succ left ih =>
      have hj := lt_length_of_machinePlace_lt hn
      have hi := List.getElem?_eq_getElem hj
      by_cases hempty : p.piece table j p[j] = []
      · have hsucc : p.machinePlace table (j + 1) = p.machinePlace table j := by
          rw [machinePlace_succ table hi, hempty]
          rfl
        rw [← hsucc] at hn ⊢
        apply ih _ hn (by omega)
        apply h.bypasses_next hi hb _ _ (lt_length_of_machinePlace_lt hn)
        · simp [hempty]
        · intro hkind
          obtain ⟨front, x, hoperation, -⟩ :=
            Instr.operation_of_isJump (p.nameAt table j p[j]) (p.operationPlace table j p[j])
              (show p[j].kind.isJump by rw [hkind]; rfl)
          rw [piece, operationPart, hoperation] at hempty
          simp at hempty
      · exact ⟨j, p[j], 0, hi, hb, rfl, List.length_pos_iff.mpr hempty, by simp⟩

/-- From the end of the code of an instruction control goes on to the code of another one. -/
theorem Owns.inside_next {k : Nat} (hi : p[j]? = some i) (hb : p.Bypasses o j)
    (hx : (p.piece table j i)[k]? = some x) (hop : x.op ≠ .jmp)
    (hwrites : ∀ x ∈ (p.piece table j i).take (k + 1), r ∉ x.writes)
    (hn : p.machinePlace table j + (k + 1) < (p.machineCode table).length) :
  p.Inside table o r (p.machinePlace table j + (k + 1))
  := by
  have hk := (List.getElem?_eq_some_iff.mp hx).1
  by_cases hlt : k + 1 < (p.piece table j i).length
  · exact ⟨j, i, k + 1, hi, hb, rfl, hlt, hwrites⟩
  · have hlength : (p.piece table j i).length = k + 1 := by omega
    rw [← hlength, List.take_length] at hwrites
    rw [← hlength, ← machinePlace_succ table hi] at hn ⊢
    apply h.inside_machinePlace _ hn
    apply h.bypasses_next hi hb hwrites _ (lt_length_of_machinePlace_lt hn)
    intro hkind
    obtain ⟨front, y, hoperation, -, -, hy, -⟩ :=
      i.operation_of_isJump (p.nameAt table j i) (p.operationPlace table j i)
        (show i.kind.isJump by rw [hkind]; rfl)
    have hpiece : p.piece table j i = (p.fetchPart table j i ++ front) ++ [y] := by
      rw [piece, operationPart, hoperation, List.append_assoc]
    have hlast : (p.piece table j i)[k]? = some y := by
      have hfront : k = (p.fetchPart table j i ++ front).length := by
        rw [hpiece, List.length_append, List.length_singleton] at hlength
        omega
      rw [hpiece, hfront, List.getElem?_concat_length]
    apply hop
    rw [← hy hkind, Option.some.inj (hx.symm.trans hlast)]

/-- From a jump of an operation control goes on to the code of an instruction. -/
theorem Owns.inside_jump (hp : generate program table₀ = (.ok p, table₁))
    (hlabels : (p.machineCode table).labelNames.Nodup) (hi : p[j]? = some i)
    (hb : p.Bypasses o j) (hx : x ∈ p.operationPart table j i) (hjump : x.op.isJump)
    (hfetch : ∀ x ∈ p.fetchPart table j i, r ∉ x.writes)
    (hn : (p.machineCode table).LabelAt x.target n) :
  p.Inside table o r n
  := by
  have hwell := wellFormed_of_generate hp
  have hmade := made_of_generate hp
  have hunique := MachineCode.nodup_labelNames_iff.mp hlabels x.target n
  obtain ⟨hshort, k, hk⟩ | ⟨hkind, htarget, j', hj'⟩ | ⟨hcomparison, htarget⟩ :=
    target_cases hwell hi hx hjump
  · obtain rfl := hunique _ hn (labelAt_machineCode_iff.mpr ⟨j, i, k, hi, rfl, hk⟩)
    obtain ⟨y, hy, -⟩ := hk
    have hlt := (List.getElem?_eq_some_iff.mp hy).1
    refine ⟨j, i, (p.fetchPart table j i).length + k, hi, hb, ?_, ?_, ?_⟩
    · rw [operationPlace_eq, Nat.add_assoc]
    · rw [piece, List.length_append]
      omega
    · rw [piece, List.take_length_add_append, List.forall_mem_append]
      use hfetch
      intro y hy
      apply h.not_writes_of_isComputation hmade hi (Instr.isComputation_of_isShortBranch hshort)
      apply List.mem_of_mem_take hy
  · rw [htarget] at hunique hn
    obtain rfl := hunique _ hn (hj'.machinePlace table)
    have hwrites : ∀ x ∈ p.piece table j i, r ∉ x.writes := by
      rw [piece, List.forall_mem_append]
      use hfetch
      intro y hy hr
      obtain ⟨-, hcomputation | ⟨hassign, -⟩⟩ := Instr.writes_operation hy hr
      · apply absurd hr (h.not_writes_of_isComputation hmade hi hcomputation hy)
      · rw [hassign] at hkind
        cases hkind
    obtain ⟨hfirst, hassigns⟩ := h.not_firstMention_of_not_writes hi hwrites
    have hindex := labelIndex?_of_labelAt hwell.labels hj'
    obtain ⟨y, hy, -⟩ := hn
    apply h.inside_machinePlace (hb.step hi hfirst hassigns (Graph.follows_label hi hkind hindex))
    apply (List.getElem?_eq_some_iff.mp hy).1
  · obtain ⟨k, hk⟩ := numbered_of_labelAt hp hn
    obtain ⟨l, hl⟩ := nameAt_target hmade hi (Instr.isComputation_of_isComparison hcomparison)
    apply absurd (hk.symm.trans (htarget.trans hl)) (numberedLabel_ne_ofTemp k l)

/-- Where the register is unwritten in the machine code, the operand is bypassed in the program. -/
theorem Owns.inside_of_unwritten (hp : generate program table₀ = (.ok p, table₁))
    (hlabels : (p.machineCode table).labelNames.Nodup)
    (hunwritten : (p.machineCode table).Unwritten r n) (hn : n < (p.machineCode table).length) :
  p.Inside table o r n
  := by
  induction hunwritten with
  | start => apply h.inside_machinePlace .start hn
  | @step n n' x _ hx hr hfollows ih =>
      obtain ⟨j, i, k, hi, hb, rfl, hk, hbefore⟩ := ih (List.getElem?_eq_some_iff.mp hx).1
      have hxk := getElem?_piece hi hk hx
      obtain ⟨x', hx', hnext⟩ := hfollows
      obtain rfl := Option.some.inj (hx.symm.trans hx')
      obtain ⟨hop, rfl⟩ | ⟨hjump, hlabel⟩ := hnext
      · apply h.inside_next hi hb hxk hop _ hn
        rw [List.take_add_one, hxk, Option.toList_some, List.forall_mem_append,
          List.forall_mem_singleton]
        use hbefore
      · rw [piece] at hxk hbefore
        by_cases hlt : k < (p.fetchPart table j i).length
        · rw [List.getElem?_append_left hlt] at hxk
          apply absurd hjump (Lowering.not_isJump_of_mem_fetchCode (List.mem_of_getElem? hxk))
        · rw [Nat.not_lt] at hlt
          rw [List.getElem?_append_right hlt] at hxk
          rw [List.take_append, List.take_of_length_le hlt, List.forall_mem_append] at hbefore
          apply h.inside_jump hp hlabels hi hb (List.mem_of_getElem? hxk) hjump hbefore.1 hlabel

end

end Program

/-- Let `o` be an operand that is loaded into the register `r`, whose name no literal and no
variable that the table does not know bears.  If the labels of the machine code are distinct, then
every way from the start to an instruction that reads `r` passes one that writes `r`, exactly if
every way from the start of the program to an instruction that reads `o`, and is not the first one
to mention `o`, passes the first mention of `o` or an assignment to `o`. -/
theorem register_written_before_read_iff {program : List Stmt} {table₀ table : SymbolTable}
    {p : Program} (hp : generate program table₀ = (.ok p, table)) {o : Operand} {r : Text}
    (h : p.Owns (some table) o r) :
  ∃ m, p.lower (some table) = .ok m
    ∧ (m.labelNames.Nodup →
      ((∀ n x, m[n]? = some x → r ∈ x.reads → ¬ m.Unwritten r n)
        ↔ ∀ j i, p[j]? = some i → i.Reads o → ¬ p.FirstMention o j → ¬ p.Bypasses o j))
  := by
  have hwell := wellFormed_of_generate hp
  have hmade := made_of_generate hp
  use p.machineCode (some table), Program.lower_eq fun i hi => (hwell.complete i hi).known
  intro hlabels
  constructor
  · intro hwritten j i hi hreads hfirst hb
    obtain ⟨k, x, hx, hr, hjump⟩ := h.exists_read hmade hi hreads
    apply hwritten _ x (Program.getElem?_machineCode hi hx) hr
    apply Program.unwritten_take hi _ (h.unwritten_of_bypasses hmade hb) _ hjump
    · intro y hy hry
      obtain hj | ⟨hkind, htarget, -⟩ := h.firstMention_or_assigns hmade hi hy hry
      · apply hfirst hj
      · apply hreads.2 hkind htarget
    · apply Nat.le_of_lt (List.getElem?_eq_some_iff.mp hx).1
  · intro hbypasses n x hx hr hunwritten
    have hn := (List.getElem?_eq_some_iff.mp hx).1
    obtain ⟨j, i, k, hi, hb, rfl, hk, hbefore⟩ :=
      h.inside_of_unwritten hp hlabels hunwritten hn
    obtain ⟨hreads, hfirst⟩ :=
      h.reads_of_mem_reads hi (Program.getElem?_piece hi hk hx) hr hbefore
    apply hbypasses j i hi hreads hfirst hb

/-- A variable that is read in a loop after it was declared. -/
def readingLoop : List Stmt :=
  [.letVar {} "x" {} (.literal {} .string "a"),
   .while {} (.ident {} "x") [.print {} (.ident {} "x")]]

def readingLoopCode : Program :=
  [{ kind := .assign, target := .var "x", source := .literal .string "a" },
   { kind := .label, label := "L0" },
   { kind := .jumpIfFalse, cond := .var "x", label := "L1" },
   { kind := .print, source := .var "x" },
   { kind := .jump, label := "L0" },
   { kind := .label, label := "L1" }]

theorem readingLoop_written_before_read :
  ∃ table m, generate readingLoop {} = (.ok readingLoopCode, table)
    ∧ readingLoopCode.lower (some table) = .ok m
    ∧ readingLoopCode.Owns (some table) (.var "x") "r0"
    ∧ m.labelNames.Nodup
    ∧ ∀ n x, m[n]? = some x → ("r0" : Text) ∈ x.reads → ¬ m.Unwritten "r0" n
  := by
  have hcode : generate readingLoop {} = (.ok readingLoopCode, (generate readingLoop {}).2) := by
    apply Prod.ext
    · decide +kernel
    · rfl
  have hnames : ∀ i ∈ readingLoopCode, ∀ y ∈ i.fetched, y.1.text ≠ "r0" := by decide +kernel
  have howns : readingLoopCode.Owns (some (generate readingLoop {}).2) (.var "x") "r0" := by
    refine ⟨.inr ⟨rfl, by decide +kernel⟩, ?_, ?_⟩
    · exact ⟨0, _, [], false, _, rfl, rfl, by decide +kernel⟩
    · rintro o' r' ⟨j, i, before, pushed, rest, hi, hfetched, -⟩ htext
      apply absurd htext (hnames i (List.mem_of_getElem? hi) (o', pushed) _)
      simp [hfetched]
  have hbypasses : ∀ j, readingLoopCode.Bypasses (.var "x") j → j = 0 := by
    intro j hj
    induction hj with
    | start => rfl
    | step _ hi hfirst _ _ ih =>
        subst ih
        apply absurd _ hfirst
        exact ⟨⟨_, rfl, _, List.mem_cons_self, rfl⟩, by simp⟩
  obtain ⟨m, hm, hiff⟩ := register_written_before_read_iff hcode howns
  have hlabels : m.labelNames.Nodup := by
    obtain rfl := Except.ok.inj hm
    decide +kernel
  refine ⟨_, m, hcode, hm, howns, hlabels, (hiff hlabels).mpr ?_⟩
  intro j i hi _ hfirst hj
  obtain rfl := hbypasses j hj
  apply hfirst
  exact ⟨⟨_, rfl, _, List.mem_cons_self, rfl⟩, by simp⟩

/-- A literal that is printed in a branch that is not taken, and then again. -/
def literalInBranch : List Stmt :=
  [.ifElse {} (.literal {} .boolean "false") [.print {} (.literal {} .number "1")] [] false,
   .print {} (.literal {} .number "1")]

def literalInBranchCode : Program :=
  [{ kind := .jumpIfFalse, cond := .literal .boolean "false", label := "L0" },
   { kind := .print, source := .literal .number "1" },
   { kind := .jump, label := "L1" },
   { kind := .label, label := "L0" },
   { kind := .label, label := "L1" },
   { kind := .print, source := .literal .number "1" }]

def literalInBranchMachineCode : MachineCode :=
  [{ op := .load, reg := "r0", value := "false" },
   { op := .cmp, left := "r0", right := "0" },
   { op := .je, target := "L0" },
   { op := .load, reg := "r1", value := "1" },
   { op := .print, reg := "r1" },
   { op := .jmp, target := "L1" },
   { op := .label, name := "L0" },
   { op := .label, name := "L1" },
   { op := .print, reg := "r1" }]

/-- The literal is loaded in the branch only, so control can come around it to the second print. -/
theorem literalInBranch_read_unwritten :
  ∃ table, generate literalInBranch {} = (.ok literalInBranchCode, table)
    ∧ literalInBranchCode.lower (some table) = .ok literalInBranchMachineCode
    ∧ literalInBranchCode.Resolves (some table) (.literal .number "1") "r1"
    ∧ literalInBranchMachineCode[8]? = some { op := .print, reg := "r1" }
    ∧ literalInBranchMachineCode.Unwritten "r1" 8
  := by
  have hcode : generate literalInBranch {}
      = (.ok literalInBranchCode, (generate literalInBranch {}).2) := by
    apply Prod.ext
    · decide +kernel
    · rfl
  have hcompared : literalInBranchMachineCode.Unwritten "r1" 2 :=
    .step (.step .start rfl (by decide) ⟨_, rfl, .inl ⟨by decide, rfl⟩⟩) rfl (by decide)
      ⟨_, rfl, .inl ⟨by decide, rfl⟩⟩
  have hjumped : literalInBranchMachineCode.Unwritten "r1" 6 :=
    hcompared.step rfl (by decide) ⟨_, rfl, .inr ⟨rfl, _, rfl, rfl, rfl⟩⟩
  refine ⟨_, hcode, ?_, ?_, rfl, ?_⟩
  · apply congrArg Except.ok
    decide +kernel
  · exact ⟨1, _, [], false, [], rfl, rfl, by decide +kernel⟩
  · apply (hjumped.step rfl (by decide) ⟨_, rfl, .inl ⟨by decide, rfl⟩⟩).step rfl (by decide)
    exact ⟨_, rfl, .inl ⟨by decide, rfl⟩⟩

end ThreeAddress
