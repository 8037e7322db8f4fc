import Mathlib.Data.List.Infix
import ThreeAddress.Code.Check
import ThreeAddress.Proofs.Code.Labels

/-!
# What the check of a program finds

`Program.Valid p` says without reference to the check which programs pass it: their labels are
distinct, their functions are bracketed, every operand is there that an instruction writes or reads,
and every jump names a label.  `Program.Fault p n problem` says in the same way what is wrong with
the instruction at place `n`.

The check counts the functions that are open and stays at zero when one ends that was never begun.
So the count is no balance of beginnings and ends of the whole program: it is the greatest balance
of all stretches at the end of what was read.
-/

namespace ThreeAddress

namespace Program

variable {p front rest : Program} {i : Instr} {label : Text} {n m : Nat} {problem : CodeProblem}

/-! ### Open functions -/

/-- The number of instructions that begin a function. -/
def starts (p : Program) : Nat := p.countP (·.kind = .functionStart)

/-- The number of instructions that end a function. -/
def ends (p : Program) : Nat := p.countP (·.kind = .functionEnd)

/-- A function is open after a program: some stretch at its end begins more functions than it
ends. -/
def LeavesOpen (p : Program) : Prop := ∃ back : Program, back <:+ p ∧ back.ends < back.starts

/-- No function ends that was not begun, and all functions that were begun end. -/
structure Bracketed (p : Program) : Prop where
  ends_le : ∀ front : Program, front <+: p → front.ends ≤ front.starts
  starts_eq : p.starts = p.ends

theorem starts_append (p q : Program) :
  starts (p ++ q) = p.starts + q.starts
  := List.countP_append

theorem ends_append (p q : Program) :
  ends (p ++ q) = p.ends + q.ends
  := List.countP_append

/-- The number of open functions after an instruction.  If none is open, none ends. -/
def openStep (depth : Nat) (i : Instr) : Nat :=
  match i.kind with
  | .functionStart => depth + 1
  | .functionEnd => depth - 1
  | _ => depth

/-- The number of functions that are open after a program, as the check counts them. -/
def openAfter (p : Program) : Nat := p.foldl openStep 0

theorem openAfter_concat (p : Program) (i : Instr) :
  openAfter (p ++ [i]) = openStep p.openAfter i
  := by
  rw [openAfter, List.foldl_append]
  rfl

/-- An instruction begins a function, ends one, or does neither. -/
theorem openStep_cases (i : Instr) :
  (i.kind = .functionStart ∧ starts [i] = 1 ∧ ends [i] = 0 ∧ ∀ depth, openStep depth i = depth + 1)
    ∨ (i.kind = .functionEnd ∧ starts [i] = 0 ∧ ends [i] = 1
      ∧ ∀ depth, openStep depth i = depth - 1)
    ∨ (i.kind ≠ .functionEnd ∧ starts [i] = 0 ∧ ends [i] = 0 ∧ ∀ depth, openStep depth i = depth)
  := by
  cases hkind : i.kind with
  | functionStart => simp [starts, ends, openStep, hkind]
  | functionEnd => simp [starts, ends, openStep, hkind]
  | _ => simp [starts, ends, openStep, hkind]

/-- The number of open functions is the greatest number by which a stretch at the end of the program
begins more functions than it ends. -/
theorem openAfter_greatest (p : Program) :
  (∀ back : Program, back <:+ p → back.starts ≤ back.ends + p.openAfter)
    ∧ ∃ back : Program, back <:+ p ∧ back.starts = back.ends + p.openAfter
  := by
  induction p using List.reverseRecOn with
  | nil =>
      constructor
      · intro back hback
        rw [List.suffix_nil.mp hback]
        exact Nat.le_refl 0
      · exact ⟨[], List.suffix_refl _, rfl⟩
  | append_singleton p i ih =>
      obtain ⟨hle, longest, hlongest, heq⟩ := ih
      rw [openAfter_concat]
      have hconcat : longest ++ [i] <:+ p ++ [i] :=
        List.suffix_concat_iff.mpr (.inr ⟨longest, rfl, hlongest⟩)
      constructor
      · intro back hback
        obtain rfl | ⟨stretch, rfl, hstretch⟩ := List.suffix_concat_iff.mp hback
        · exact Nat.zero_le _
        · have hbalance := hle stretch hstretch
          rw [starts_append, ends_append]
          obtain ⟨-, hs, he, hstep⟩ | ⟨-, hs, he, hstep⟩ | ⟨-, hs, he, hstep⟩ := openStep_cases i
          all_goals
            rw [hs, he, hstep]
            omega
      · obtain ⟨-, hs, he, hstep⟩ | ⟨-, hs, he, hstep⟩ | ⟨-, hs, he, hstep⟩ := openStep_cases i
        · refine ⟨_, hconcat, ?_⟩
          rw [starts_append, ends_append, hs, he, hstep]
          omega
        -- A function that ends where none is open leaves nothing open, as the empty stretch does.
        · by_cases hzero : openAfter p = 0
          · refine ⟨[], List.nil_suffix, ?_⟩
            rw [hstep, hzero]
            rfl
          · refine ⟨_, hconcat, ?_⟩
            rw [starts_append, ends_append, hs, he, hstep]
            omega
        · refine ⟨_, hconcat, ?_⟩
          rw [starts_append, ends_append, hs, he, hstep]
          omega

theorem leavesOpen_iff :
  p.LeavesOpen ↔ p.openAfter ≠ 0
  := by
  obtain ⟨hle, longest, hlongest, heq⟩ := p.openAfter_greatest
  constructor
  · rintro ⟨back, hback, hlt⟩
    have := hle back hback
    omega
  · intro hpos
    refine ⟨longest, hlongest, ?_⟩
    omega

/-- Wherever a function ends in the program, one is open. -/
def EndsOpened (p : Program) : Prop :=
  ∀ (front : Program) (i : Instr), front ++ [i] <+: p → i.kind = .functionEnd → front.LeavesOpen

theorem endsOpened_concat :
  EndsOpened (p ++ [i]) ↔ p.EndsOpened ∧ (i.kind = .functionEnd → p.LeavesOpen)
  := by
  constructor
  · intro h
    constructor
    · intro front j hfront
      apply h front j (hfront.trans (List.prefix_append _ _))
    · apply h p i (List.prefix_refl _)
  · rintro ⟨h, hi⟩ front j hfront
    obtain heq | hfront := List.prefix_concat_iff.mp hfront
    · obtain ⟨rfl, hj⟩ := List.append_inj' heq rfl
      cases hj
      exact hi
    · apply h front j hfront

/-- As long as only open functions end, the number of open functions is the balance of the
program. -/
theorem EndsOpened.starts_eq (h : p.EndsOpened) :
  p.starts = p.ends + p.openAfter
  := by
  induction p using List.reverseRecOn with
  | nil => rfl
  | append_singleton p i ih =>
      obtain ⟨hp, hi⟩ := endsOpened_concat.mp h
      have hbalance := ih hp
      rw [openAfter_concat, starts_append, ends_append]
      obtain ⟨-, hs, he, hstep⟩ | ⟨hkind, hs, he, hstep⟩ | ⟨-, hs, he, hstep⟩ := openStep_cases i
      · rw [hs, he, hstep]
        omega
      · have hopen := leavesOpen_iff.mp (hi hkind)
        rw [hs, he, hstep]
        omega
      · rw [hs, he, hstep]
        omega

theorem EndsOpened.of_front (h : p.EndsOpened) (hfront : front <+: p) :
  front.EndsOpened
  := fun front' i hfront' => h front' i (hfront'.trans hfront)

theorem endsOpened_of_ends_le (h : ∀ front : Program, front <+: p → front.ends ≤ front.starts) :
  p.EndsOpened
  := by
  induction p using List.reverseRecOn with
  | nil =>
      intro front i hfront
      simp at hfront
  | append_singleton p i ih =>
      have hp := ih fun front hfront => h front (hfront.trans (List.prefix_append _ _))
      apply endsOpened_concat.mpr
      use hp
      intro hkind
      have hbalance := hp.starts_eq
      have hle := h (p ++ [i]) (List.prefix_refl _)
      have hone : ends [i] = 1 ∧ starts [i] = 0 := by simp [starts, ends, hkind]
      rw [starts_append, ends_append, hone.1, hone.2] at hle
      apply leavesOpen_iff.mpr
      omega

/-- Functions are bracketed exactly if only open functions end and none is open in the end. -/
theorem bracketed_iff :
  p.Bracketed ↔ p.EndsOpened ∧ ¬ p.LeavesOpen
  := by
  rw [leavesOpen_iff, not_not]
  constructor
  · intro h
    have hopened := endsOpened_of_ends_le h.ends_le
    have hbalance := hopened.starts_eq
    have htotal := h.starts_eq
    exact ⟨hopened, by omega⟩
  · rintro ⟨hopened, hzero⟩
    constructor
    · intro front hfront
      have hbalance := (hopened.of_front hfront).starts_eq
      omega
    · rw [hopened.starts_eq, hzero]
      rfl

/-! ### Valid programs and faults of instructions -/

/-- A program whose labels are distinct, whose functions are bracketed, and whose instructions have
the operands that they write and read, and a label if they jump. -/
structure Valid (p : Program) : Prop where
  labels : ∀ label n m, p.LabelAt label n → p.LabelAt label m → n = m
  bracketed : p.Bracketed
  operands : ∀ i ∈ p, ∀ x ∈ i.operands, x.isPresent
  targets : ∀ i ∈ p, i.kind.isJump → i.label ≠ []

/-- What is wrong with the instruction at place `n`: it repeats a label that stands last before it
at place `first`, it ends a function though none is open, or it lacks an operand or a label.  A
function that never ends is no fault of one instruction. -/
inductive Fault (p : Program) (n : Nat) : CodeProblem → Prop
  | duplicateLabel {label : Text} {first : Nat} (hn : p.LabelAt label n) (hlt : first < n)
      (hfirst : p.LabelAt label first) (hlast : ∀ m < n, p.LabelAt label m → m ≤ first) :
    Fault p n (.duplicateLabel n label first)
  | strayEnd {i : Instr} (hi : p[n]? = some i) (hkind : i.kind = .functionEnd)
      (hopen : ¬ LeavesOpen (p.take n)) :
    Fault p n (.strayEnd n)
  | emptyOperand {i : Instr} {x : Operand} (hi : p[n]? = some i) (hx : x ∈ i.operands)
      (habsent : x.isPresent = false) :
    Fault p n (.emptyOperand n i.kind)
  | noTarget {i : Instr} (hi : p[n]? = some i) (hjump : i.kind.isJump) (hlabel : i.label = []) :
    Fault p n (.noTarget n i.kind)

/-- The message about a fault begins with the place of the instruction. -/
theorem Fault.message_eq (h : p.Fault n problem) :
  ∃ rest, problem.message = "instr " ++ Text.ofNat n ++ ": " ++ rest
  := by
  cases h with
  | strayEnd =>
      refine ⟨"FUNCTION_END without FUNCTION_START", ?_⟩
      simp only [CodeProblem.message, List.append_assoc]
      rfl
  | _ =>
      simp only [CodeProblem.message, List.append_assoc]
      exact ⟨_, rfl⟩

/-- The instruction at a place comes behind the instructions before it. -/
theorem take_concat_isPrefix (h : p[n]? = some i) :
  p.take n ++ [i] <+: p
  := by
  obtain ⟨hlt, rfl⟩ := List.getElem?_eq_some_iff.mp h
  rw [List.take_concat_get' p n hlt]
  apply List.take_prefix

theorem labelAt_take_iff :
  LabelAt (p.take n) label m ↔ m < n ∧ p.LabelAt label m
  := by
  rw [LabelAt, LabelAt, List.getElem?_take]
  split
  · next hlt => simp [hlt]
  · next hlt => simp [hlt]

/-- The last place of a label before place `n`. -/
theorem labelIndex?_take_eq_some_iff :
  labelIndex? (p.take n) label = some m
    ↔ m < n ∧ p.LabelAt label m ∧ ∀ k < n, p.LabelAt label k → k ≤ m
  := by
  rw [labelIndex?_eq_some_iff]
  simp only [labelAt_take_iff, and_imp, and_assoc]

/-- The later one of two places of a label has a fault. -/
theorem exists_fault_of_labelAt (hn : p.LabelAt label n) (hm : p.LabelAt label m) (hlt : m < n) :
  ∃ problem, p.Fault n problem
  := by
  cases hfirst : labelIndex? (p.take n) label with
  | none => exact absurd (labelAt_take_iff.mpr ⟨hlt, hm⟩) (labelIndex?_eq_none_iff.mp hfirst m)
  | some first =>
      obtain ⟨hlt', hat, hlast⟩ := labelIndex?_take_eq_some_iff.mp hfirst
      exact ⟨_, .duplicateLabel hn hlt' hat hlast⟩

/-- A program is valid exactly if no instruction has a fault and no function is left open. -/
theorem valid_iff :
  p.Valid ↔ (∀ n problem, ¬ p.Fault n problem) ∧ ¬ p.LeavesOpen
  := by
  constructor
  · intro h
    obtain ⟨hopened, hclosed⟩ := bracketed_iff.mp h.bracketed
    refine ⟨?_, hclosed⟩
    rintro n problem (⟨hn, hlt, hfirst, -⟩ | ⟨hi, hkind, hopen⟩ | ⟨hi, hx, habsent⟩ |
      ⟨hi, hjump, hlabel⟩)
    · have heq := h.labels _ _ _ hn hfirst
      omega
    · apply hopen (hopened _ _ (take_concat_isPrefix hi) hkind)
    · have hpresent := h.operands _ (List.mem_of_getElem? hi) _ hx
      rw [habsent] at hpresent
      cases hpresent
    · apply h.targets _ (List.mem_of_getElem? hi) hjump hlabel
  · rintro ⟨hnone, hclosed⟩
    constructor
    · intro label n m hn hm
      obtain hlt | heq | hlt := Nat.lt_trichotomy n m
      · obtain ⟨problem, hfault⟩ := exists_fault_of_labelAt hm hn hlt
        exact absurd hfault (hnone m problem)
      · exact heq
      · obtain ⟨problem, hfault⟩ := exists_fault_of_labelAt hn hm hlt
        exact absurd hfault (hnone n problem)
    · apply bracketed_iff.mpr
      refine ⟨?_, hclosed⟩
      rintro front i ⟨rest, rfl⟩ hkind
      by_contra hopen
      apply hnone front.length (.strayEnd front.length)
      apply Fault.strayEnd (i := i)
      · simp
      · exact hkind
      · simpa using hopen
    · intro i hi x hx
      obtain ⟨n, hn⟩ := List.mem_iff_getElem?.mp hi
      by_contra habsent
      exact hnone n _ (.emptyOperand hn hx (Bool.eq_false_iff.mpr habsent))
    · intro i hi hjump hlabel
      obtain ⟨n, hn⟩ := List.mem_iff_getElem?.mp hi
      exact hnone n _ (.noTarget hn hjump hlabel)

/-! ### The problems found -/

theorem labelAt_concat_iff :
  LabelAt (p ++ [i]) label n
    ↔ p.LabelAt label n ∨ n = p.length ∧ i.kind = .label ∧ i.label = label
  := by
  rw [LabelAt, LabelAt, List.getElem?_append]
  split
  · next hlt =>
    have hne : n ≠ p.length := Nat.ne_of_lt hlt
    simp [hne]
  · next hle =>
    have hnone : p[n]? = none := List.getElem?_eq_none (Nat.not_lt.mp hle)
    have hplace : [i][n - p.length]? = if n = p.length then some i else none := by
      rw [List.getElem?_singleton]
      congr 1
      rw [eq_iff_iff]
      omega
    simp [hnone, hplace, and_assoc]

theorem LabelAt.lt_length (h : p.LabelAt label n) :
  n < p.length
  := by
  obtain ⟨i, hi, -⟩ := h
  exact (List.getElem?_eq_some_iff.mp hi).1

/-- With one more instruction, the last place of a label is that instruction if it is the label. -/
theorem labelIndex?_concat (p : Program) (i : Instr) (label : Text) :
  labelIndex? (p ++ [i]) label
    = if i.kind = .label ∧ i.label = label then some p.length else p.labelIndex? label
  := by
  split
  · next h =>
    rw [labelIndex?_eq_some_iff]
    use labelAt_concat_iff.mpr (.inr ⟨rfl, h⟩)
    intro m hm
    obtain hm | ⟨rfl, -⟩ := labelAt_concat_iff.mp hm
    · exact Nat.le_of_lt hm.lt_length
    · exact Nat.le_refl _
  · next h =>
    apply Option.ext
    intro n
    simp only [labelIndex?_eq_some_iff, labelAt_concat_iff, h, and_false, or_false]

/-- What the check finds at one instruction. -/
def problemsOf (at_ : Nat) (seen : List (Text × Nat)) (depth : Nat) (i : Instr) :
    List CodeProblem :=
  (if i.kind = .label then
    ((seen.lookup i.label).map (CodeProblem.duplicateLabel at_ i.label ·)).toList
  else []) ++ (if i.kind = .functionEnd ∧ depth = 0 then [.strayEnd at_] else []) ++
    i.slotProblems at_

/-- The labels seen after an instruction. -/
def seenAfter (at_ : Nat) (seen : List (Text × Nat)) (i : Instr) : List (Text × Nat) :=
  if i.kind = .label then (i.label, at_) :: seen else seen

/-- The problems of an instruction come before those of the instructions after it. -/
theorem problemsFrom_cons (at_ : Nat) (seen : List (Text × Nat)) (depth : Nat) (i : Instr)
    (rest : Program) :
  problemsFrom at_ seen depth (i :: rest)
    = problemsOf at_ seen depth i
      ++ problemsFrom (at_ + 1) (seenAfter at_ seen i) (openStep depth i) rest
  := by
  have hslots : i.kind = .label ∨ i.kind = .functionEnd → i.slotProblems at_ = [] := by
    rintro (hkind | hkind) <;>
      simp [Instr.slotProblems, Instr.operands, Instr.defs, Instr.uses, InstrKind.isJump, hkind]
  rw [problemsFrom, problemsOf, seenAfter, openStep]
  cases hkind : i.kind with
  | label => simp [hslots (.inl hkind)]
  | functionEnd =>
      rw [hslots (.inr hkind)]
      by_cases hdepth : depth = 0
      · simp [hdepth]
      · simp [hdepth]
  | _ => simp

theorem mem_slotProblems :
  problem ∈ i.slotProblems n
    ↔ (∃ x ∈ i.operands, x.isPresent = false) ∧ problem = .emptyOperand n i.kind
      ∨ (i.kind.isJump ∧ i.label = []) ∧ problem = .noTarget n i.kind
  := by
  rw [Instr.slotProblems]
  by_cases hoperands : i.operands.all (·.isPresent)
  all_goals by_cases htarget : i.kind.isJump ∧ i.label = []
  all_goals simp_all

/-- The problems found at an instruction are its faults, if the labels seen are those before it,
each at its last place. -/
theorem mem_problemsOf_iff {seen : List (Text × Nat)} (hi : p[n]? = some i)
    (hseen : ∀ label, seen.lookup label = labelIndex? (p.take n) label) :
  problem ∈ problemsOf n seen (openAfter (p.take n)) i ↔ p.Fault n problem
  := by
  rw [problemsOf, List.mem_append, List.mem_append, mem_slotProblems, List.mem_ite_nil_right,
    List.mem_ite_nil_right, Option.mem_toList, Option.map_eq_some_iff, List.mem_singleton, hseen]
  constructor
  · rintro ((⟨hkind, first, hfirst, rfl⟩ | ⟨⟨hkind, hzero⟩, rfl⟩) |
      ⟨⟨x, hx, habsent⟩, rfl⟩ | ⟨⟨hjump, hlabel⟩, rfl⟩)
    · obtain ⟨hlt, hat, hlast⟩ := labelIndex?_take_eq_some_iff.mp hfirst
      exact .duplicateLabel ⟨i, hi, hkind, rfl⟩ hlt hat hlast
    · apply Fault.strayEnd hi hkind
      rw [leavesOpen_iff, not_not]
      exact hzero
    · exact .emptyOperand hi hx habsent
    · exact .noTarget hi hjump hlabel
  · rintro (⟨⟨j, hj, hkind, rfl⟩, hlt, hat, hlast⟩ | ⟨hj, hkind, hopen⟩ | ⟨hj, hx, habsent⟩ |
      ⟨hj, hjump, hlabel⟩)
    all_goals cases hi.symm.trans hj
    · exact .inl (.inl ⟨hkind, _, labelIndex?_take_eq_some_iff.mpr ⟨hlt, hat, hlast⟩, rfl⟩)
    · rw [leavesOpen_iff, not_not] at hopen
      exact .inl (.inr ⟨⟨hkind, hopen⟩, rfl⟩)
    · exact .inr (.inl ⟨⟨_, hx, habsent⟩, rfl⟩)
    · exact .inr (.inr ⟨⟨hjump, hlabel⟩, rfl⟩)

theorem Fault.lt_length (h : p.Fault n problem) :
  n < p.length
  := by
  obtain ⟨hn, -⟩ | ⟨hi, -⟩ | ⟨hi, -⟩ | ⟨hi, -⟩ := h
  · exact hn.lt_length
  all_goals exact (List.getElem?_eq_some_iff.mp hi).1

/-- The labels seen after an instruction are those of the program up to it, each at its last
place. -/
theorem lookup_seenAfter {seen : List (Text × Nat)}
    (hseen : ∀ label, seen.lookup label = p.labelIndex? label) (i : Instr) (label : Text) :
  (seenAfter p.length seen i).lookup label = labelIndex? (p ++ [i]) label
  := by
  rw [labelIndex?_concat, seenAfter]
  by_cases hkind : i.kind = .label
  · rw [if_pos hkind, List.lookup_cons]
    by_cases hlabel : i.label = label
    · simp [hkind, hlabel]
    · have hne : (label == i.label) = false := beq_eq_false_iff_ne.mpr (Ne.symm hlabel)
      simp [hne, hlabel, hseen]
  · simp [hkind, hseen]

/-- The problems found from a place on are the faults from there on, and that a function is left
open. -/
theorem mem_problemsFrom_iff {seen : List (Text × Nat)} (hrest : p.drop n = rest)
    (hseen : ∀ label, seen.lookup label = labelIndex? (p.take n) label) :
  problem ∈ problemsFrom n seen (openAfter (p.take n)) rest
    ↔ (∃ m, n ≤ m ∧ p.Fault m problem) ∨ problem = .unterminated ∧ p.LeavesOpen
  := by
  induction rest generalizing n seen with
  | nil =>
      have hlength := List.drop_eq_nil_iff.mp hrest
      have hnone : ¬ ∃ m, n ≤ m ∧ p.Fault m problem := by
        rintro ⟨m, hm, h⟩
        have hlt := h.lt_length
        omega
      rw [problemsFrom, List.take_of_length_le hlength, leavesOpen_iff]
      by_cases hzero : p.openAfter = 0
      · simp [hnone, hzero]
      · simp [hnone, hzero]
  | cons i rest ih =>
      have hi : p[n]? = some i := by
        rw [← List.head?_drop, hrest]
        rfl
      have hrest' : p.drop (n + 1) = rest := by
        rw [← List.drop_drop, hrest]
        rfl
      obtain ⟨hlt, hget⟩ := List.getElem?_eq_some_iff.mp hi
      have htake : p.take n ++ [i] = p.take (n + 1) := by
        rw [← hget]
        apply List.take_concat_get'
      have hseen' : ∀ label, (seenAfter n seen i).lookup label
          = labelIndex? (p.take (n + 1)) label := by
        have hafter := lookup_seenAfter hseen i
        rw [htake, List.length_take_of_le (Nat.le_of_lt hlt)] at hafter
        exact hafter
      have hsplit : (∃ m, n ≤ m ∧ p.Fault m problem)
          ↔ p.Fault n problem ∨ ∃ m, n + 1 ≤ m ∧ p.Fault m problem := by
        constructor
        · rintro ⟨m, hm, h⟩
          obtain rfl | hm := Nat.eq_or_lt_of_le hm
          · exact .inl h
          · exact .inr ⟨m, hm, h⟩
        · rintro (h | ⟨m, hm, h⟩)
          · exact ⟨n, Nat.le_refl n, h⟩
          · exact ⟨m, Nat.le_of_succ_le hm, h⟩
      rw [problemsFrom_cons, List.mem_append, mem_problemsOf_iff hi hseen, ← openAfter_concat,
        htake, ih hrest' hseen', hsplit, or_assoc]

/-- What the check finds are the faults of the instructions, and that a function is left open. -/
theorem mem_problems_iff :
  problem ∈ p.problems ↔ (∃ n, p.Fault n problem) ∨ problem = .unterminated ∧ p.LeavesOpen
  := by
  have hstart : p.problems = problemsFrom 0 [] (openAfter (p.take 0)) p := rfl
  rw [hstart, mem_problemsFrom_iff List.drop_zero fun _ => rfl]
  simp only [Nat.zero_le, true_and]

theorem check?_eq_none_iff :
  p.check? = none ↔ p.problems = []
  := by
  rw [check?]
  cases p.problems with
  | nil => simp
  | cons problem problems => simp

theorem check?_eq_some_iff {text : Text} :
  p.check? = some text
    ↔ p.problems ≠ [] ∧ text = Text.join "\n" (p.problems.map CodeProblem.message)
  := by
  rw [check?]
  cases p.problems with
  | nil => simp
  | cons problem problems => simp [eq_comm]

/-- Exactly the valid programs pass the check.  Of another one it says, line by line, what is wrong
with its instructions and whether a function is left open, and what is wrong with an instruction is
said under its place. -/
theorem check_accepts_valid (p : Program) :
  (p.check? = none ↔ p.Valid)
    ∧ ∀ text, p.check? = some text → ∃ problems : List CodeProblem,
      text = Text.join "\n" (problems.map CodeProblem.message)
        ∧ (∀ problem, problem ∈ problems
          ↔ (∃ n, p.Fault n problem) ∨ problem = .unterminated ∧ p.LeavesOpen)
        ∧ ∀ n problem, p.Fault n problem →
          ∃ rest, problem.message = "instr " ++ Text.ofNat n ++ ": " ++ rest
  := by
  constructor
  · rw [check?_eq_none_iff, valid_iff, List.eq_nil_iff_forall_not_mem]
    simp only [mem_problems_iff, not_or, not_exists, not_and]
    constructor
    · intro h
      exact ⟨fun n problem => (h problem).1 n, (h .unterminated).2 rfl⟩
    · rintro ⟨hnone, hclosed⟩ problem
      exact ⟨fun n => hnone n problem, fun _ => hclosed⟩
  · intro text htext
    use p.problems, (check?_eq_some_iff.mp htext).2, fun _ => mem_problems_iff
    intro n problem h
    apply h.message_eq

/-- Beginnings and ends that are equally many, in the wrong order. -/
example : problems [{ kind := .functionEnd }, { kind := .functionStart }]
    = [.strayEnd 0, .unterminated] := by decide

end Program

end ThreeAddress
