import ThreeAddress.Code.Check
import ThreeAddress.Machine.Lower
import ThreeAddress.Proofs.Code.Fragments
import ThreeAddress.Proofs.Flow.ControlFlow

/-!
# Generated code is well formed

A program is well formed if its labels are distinct, its functions are bracketed, every operand is
there that an instruction needs, and every jump leads to a label of the program.  A well-formed
program passes the check of its structure, its graph has no jump that leads nowhere, and it has
machine code.  Generated code is well formed.
-/

namespace ThreeAddress

namespace Instr

/-- The instruction is of a kind that exists, has the operands of its kind, and jumps to one of the
labels if it jumps. -/
structure Complete (labels : List Text) (i : Instr) : Prop where
  known : ∀ code, i.kind ≠ .other code
  operands : i.operands.all (·.isPresent)
  label : i.kind.isJump → i.label ∈ labels ∧ i.label ≠ []

theorem Complete.slotProblems_eq {labels : List Text} {i : Instr} (h : i.Complete labels)
    (place : Nat) :
  i.slotProblems place = []
  := by
  have hjump : ¬ (i.kind.isJump && i.label.isEmpty) = true := by
    rw [Bool.and_eq_true, List.isEmpty_iff]
    rintro ⟨hjump, hempty⟩
    apply (h.label hjump).2 hempty
  rw [slotProblems, if_pos h.operands, if_neg hjump]
  rfl

end Instr

namespace Lowering

theorem exists_instr? (table : Option SymbolTable) (s : Lowering) {i : Instr}
    (h : ∀ code, i.kind ≠ .other code) :
  ∃ s', s.instr? table i = some s'
  := by
  rw [instr?]
  split
  case h_13 code hkind => cases h code hkind
  all_goals exact ⟨_, rfl⟩

end Lowering

namespace Program

/-- The number of functions that are open after a program if `depth` are open before it, unless one
ends that was never begun. -/
def depthAfter? (depth : Nat) : Program → Option Nat
  | [] => some depth
  | i :: rest =>
    match i.kind with
    | .functionStart => depthAfter? (depth + 1) rest
    | .functionEnd => if depth = 0 then none else depthAfter? (depth - 1) rest
    | _ => depthAfter? depth rest

theorem depthAfter?_cons_of_ne {i : Instr} (hstart : i.kind ≠ .functionStart)
    (hend : i.kind ≠ .functionEnd) (depth : Nat) (rest : Program) :
  depthAfter? depth (i :: rest) = depthAfter? depth rest
  := by
  rw [depthAfter?]
  split
  · next hkind => cases hstart hkind
  · next hkind => cases hend hkind
  · rfl

theorem depthAfter?_append (c c' : Program) (depth : Nat) :
  depthAfter? depth (c ++ c') = (depthAfter? depth c).bind (depthAfter? · c')
  := by
  fun_induction depthAfter? depth c with
  | case1 => rfl
  | case2 depth i rest hkind ih => rw [List.cons_append, depthAfter?, hkind, ih]
  | case3 i rest hkind =>
      rw [List.cons_append, depthAfter?, hkind]
      rfl
  | case4 depth i rest hkind hdepth ih =>
      rw [List.cons_append, depthAfter?, hkind]
      dsimp only
      rw [if_neg hdepth, ih]
  | case5 depth i rest hstart hend ih =>
      rw [List.cons_append, depthAfter?_cons_of_ne hstart hend, ih]

/-- The functions of the program are bracketed. -/
def Balanced (c : Program) : Prop := ∀ depth, c.depthAfter? depth = some depth

theorem balanced_nil :
  Balanced []
  := fun _ => rfl

theorem Balanced.append {c c' : Program} (h : c.Balanced) (h' : c'.Balanced) :
  Balanced (c ++ c')
  := by
  intro depth
  rw [depthAfter?_append, h, Option.bind_some, h']

/-- An instruction that begins or ends no function changes nothing. -/
theorem Balanced.cons {i : Instr} {c : Program} (hstart : i.kind ≠ .functionStart)
    (hend : i.kind ≠ .functionEnd) (h : c.Balanced) :
  Balanced (i :: c)
  := by
  intro depth
  rw [depthAfter?_cons_of_ne hstart hend, h]

theorem Balanced.function {i j : Instr} {c : Program} (hi : i.kind = .functionStart)
    (hj : j.kind = .functionEnd) (h : c.Balanced) :
  Balanced (i :: (c ++ [j]))
  := by
  intro depth
  rw [depthAfter?, hi, depthAfter?_append, h, Option.bind_some, depthAfter?, hj]
  rfl

/-- Every instruction is complete. -/
def CompleteIn (labels : List Text) (c : Program) : Prop := ∀ i ∈ c, i.Complete labels

theorem completeIn_nil {labels : List Text} :
  CompleteIn labels []
  := by
  intro i hi
  cases hi

theorem completeIn_cons {labels : List Text} {i : Instr} {c : Program} :
  CompleteIn labels (i :: c) ↔ i.Complete labels ∧ c.CompleteIn labels
  := List.forall_mem_cons

theorem completeIn_append {labels : List Text} {c c' : Program} :
  CompleteIn labels (c ++ c') ↔ c.CompleteIn labels ∧ c'.CompleteIn labels
  := List.forall_mem_append

/-- Labels are distinct, functions are bracketed, and every instruction is complete. -/
structure WellFormed (p : Program) : Prop where
  labels : p.labelNames.Nodup
  balanced : p.Balanced
  complete : p.CompleteIn p.labelNames

/-! ### What well-formed programs pass -/

/-- The check of a program's structure finds nothing if no label was seen before and the functions
that are open are closed. -/
theorem problemsFrom_eq_nil {p : Program} {labels : List Text} {place depth : Nat}
    {seen : List (Text × Nat)} (hlabels : p.labelNames.Nodup)
    (hseen : ∀ label ∈ p.labelNames, seen.lookup label = none)
    (hdepth : p.depthAfter? depth = some 0) (hcomplete : p.CompleteIn labels) :
  p.problemsFrom place seen depth = []
  := by
  induction p generalizing place seen depth with
  | nil =>
      cases hdepth
      rfl
  | cons i p ih =>
      obtain ⟨hi, hcomplete⟩ := completeIn_cons.mp hcomplete
      rw [labelNames_cons] at hlabels hseen
      rw [problemsFrom]
      split
      · next hkind =>
        rw [if_pos hkind] at hlabels hseen
        rw [depthAfter?_cons_of_ne (by simp [hkind]) (by simp [hkind])] at hdepth
        obtain ⟨hnone, hseen⟩ := List.forall_mem_cons.mp hseen
        obtain ⟨hnot, hlabels⟩ := List.nodup_cons.mp hlabels
        rw [hnone, ih hlabels _ hdepth hcomplete]
        · rfl
        · intro label hlabel
          have hne : label ≠ i.label := fun heq => hnot (heq ▸ hlabel)
          rw [List.lookup_cons, beq_eq_false_iff_ne.mpr hne]
          apply hseen label hlabel
      · next hkind =>
        rw [if_neg (by simp [hkind])] at hlabels hseen
        rw [depthAfter?, hkind] at hdepth
        rw [hi.slotProblems_eq, ih hlabels hseen hdepth hcomplete]
        rfl
      · next hkind =>
        rw [if_neg (by simp [hkind])] at hlabels hseen
        rw [depthAfter?, hkind] at hdepth
        dsimp only at hdepth
        split
        · next hzero =>
          rw [if_pos hzero] at hdepth
          cases hdepth
        · next hpos =>
          rw [if_neg hpos] at hdepth
          apply ih hlabels hseen hdepth hcomplete
      · next hlabel hstart hend =>
        rw [if_neg hlabel] at hlabels hseen
        rw [depthAfter?_cons_of_ne hstart hend] at hdepth
        rw [hi.slotProblems_eq, ih hlabels hseen hdepth hcomplete]
        rfl

/-- A well-formed program passes the check of its structure. -/
theorem WellFormed.check?_eq_none {p : Program} (h : p.WellFormed) :
  p.check? = none
  := by
  have hproblems : p.problems = [] :=
    problemsFrom_eq_nil h.labels (fun _ _ => rfl) (h.balanced 0) h.complete
  rw [check?, hproblems]

/-- In the graph of a well-formed program every jump leads to a block. -/
theorem WellFormed.dangling_build {p : Program} (h : p.WellFormed) :
  (Graph.build p).dangling = []
  := by
  rw [Graph.build_dangling, List.flatMap_eq_nil_iff]
  rintro ⟨a, b⟩ hcut
  have hlt := Graph.stop_lt_of_mem_cuts hcut
  rw [Graph.danglingOf_eq_wantedDangling (List.getElem?_eq_getElem hlt), Graph.wantedDangling,
    if_neg]
  rintro ⟨hjump, hnone⟩
  obtain ⟨n, hn⟩ := exists_labelAt ((h.complete p[b] (List.getElem_mem hlt)).label hjump).1
  apply labelIndex?_eq_none_iff.mp hnone n hn

/-- A well-formed program has machine code. -/
theorem WellFormed.lower_eq_ok {p : Program} (h : p.WellFormed) (table : Option SymbolTable) :
  ∃ machine, p.lower table = .ok machine
  := by
  have hinstrs : ∀ s place, ∃ s', Lowering.instrs table s place p = .ok s' := by
    have hcomplete := h.complete
    generalize p.labelNames = labels at hcomplete
    clear h
    induction p with
    | nil =>
        intro s place
        exact ⟨s, rfl⟩
    | cons i p ih =>
        intro s place
        obtain ⟨hi, hcomplete⟩ := completeIn_cons.mp hcomplete
        obtain ⟨s', hs'⟩ := Lowering.exists_instr? table s hi.known
        rw [Lowering.instrs, hs']
        apply ih hcomplete
  obtain ⟨s', hs'⟩ := hinstrs {} 0
  use s'.code.toList
  rw [lower, hs']
  rfl

end Program

/-! ### Generated code -/

variable {k l k' l' : Nat} {es : List Expr} {xs : List Operand} {ss : List Stmt} {c : Program}

theorem Computes.isPresent (h : Computes k es xs c k') :
  xs.all (·.isPresent)
  := by
  induction h with
  | nil => rfl
  | cons _ _ ih ih' => simp_all
  | group _ ih => apply ih
  | literal | ident | binary | unary | call => rfl

theorem Computes.balanced (h : Computes k es xs c k') :
  c.Balanced
  := by
  induction h with
  | nil | literal | ident => apply Program.balanced_nil
  | cons _ _ ih ih' => apply ih.append ih'
  | group _ ih => apply ih
  | binary _ _ ih | unary _ _ ih | call _ ih =>
      apply ih.append
      apply Program.balanced_nil.cons (by simp) (by simp)

theorem Computes.complete (h : Computes k es xs c k') (labels : List Text) :
  c.CompleteIn labels
  := by
  induction h with
  | nil | literal | ident => apply Program.completeIn_nil
  | cons _ _ ih ih' => apply Program.completeIn_append.mpr ⟨ih, ih'⟩
  | group _ ih => apply ih
  | binary _ h ih | unary _ h ih | call h ih =>
      rw [Program.completeIn_append, Program.completeIn_cons]
      exact ⟨ih, ⟨by simp, h.isPresent, by simp [InstrKind.isJump]⟩, Program.completeIn_nil⟩

theorem Performs.balanced (h : Performs k l ss c k' l') :
  c.Balanced
  := by
  induction h with
  | nil => apply Program.balanced_nil
  | cons _ _ ih ih' => apply ih.append ih'
  | letVar hc | assign hc | retValue hc | print hc =>
      apply hc.balanced.append
      apply Program.balanced_nil.cons (by simp) (by simp)
  | ret => apply Program.balanced_nil.cons (by simp) (by simp)
  | expr hc => apply hc.balanced
  | ifElse hc _ _ ih ih' =>
      apply hc.balanced.append
      apply Program.Balanced.cons (by simp) (by simp)
      apply ih.append
      apply Program.Balanced.cons (by simp) (by simp)
      apply Program.Balanced.cons (by simp) (by simp)
      apply ih'.append
      apply Program.balanced_nil.cons (by simp) (by simp)
  | «while» hc _ ih =>
      apply Program.Balanced.cons (by simp) (by simp)
      apply hc.balanced.append
      apply Program.Balanced.cons (by simp) (by simp)
      apply ih.append
      apply Program.Balanced.cons (by simp) (by simp)
      apply Program.balanced_nil.cons (by simp) (by simp)
  | function _ ih => apply ih.function rfl rfl

theorem numberedLabel_ne_nil (n : Nat) :
  numberedLabel n ≠ []
  := by
  intro h
  cases h

theorem complete_label (labels : List Text) (label : Text) :
  Instr.Complete labels { kind := .label, label }
  := ⟨by simp, rfl, by simp [InstrKind.isJump]⟩

theorem complete_jump {labels : List Text} {n : Nat} (h : numberedLabel n ∈ labels) :
  Instr.Complete labels { kind := .jump, label := numberedLabel n }
  := ⟨by simp, rfl, fun _ => ⟨h, numberedLabel_ne_nil n⟩⟩

theorem complete_jumpIfFalse {labels : List Text} {x : Operand} {n : Nat}
    (hx : [x].all (·.isPresent)) (h : numberedLabel n ∈ labels) :
  Instr.Complete labels { kind := .jumpIfFalse, cond := x, label := numberedLabel n }
  := ⟨by simp, hx, fun _ => ⟨h, numberedLabel_ne_nil n⟩⟩

/-- Code that carries out statements is complete with its own labels. -/
theorem Performs.complete (h : Performs k l ss c k' l') {labels : List Text}
    (hlabels : c.labelNames ⊆ labels) :
  c.CompleteIn labels
  := by
  induction h with
  | nil => apply Program.completeIn_nil
  | cons _ _ ih ih' =>
      rw [Program.labelNames_append, List.append_subset] at hlabels
      apply Program.completeIn_append.mpr ⟨ih hlabels.1, ih' hlabels.2⟩
  | letVar hc | assign hc | retValue hc | print hc =>
      rw [Program.completeIn_append, Program.completeIn_cons]
      refine ⟨hc.complete labels, ⟨by simp, hc.isPresent, by simp [InstrKind.isJump]⟩,
        Program.completeIn_nil⟩
  | ret =>
      rw [Program.completeIn_cons]
      exact ⟨⟨by simp, rfl, by simp [InstrKind.isJump]⟩, Program.completeIn_nil⟩
  | expr hc => apply hc.complete
  | @ifElse k l k₁ k₂ l₂ k' l' _ _ _ _ _ _ c c₁ c₂ hc _ _ ih ih' =>
      have hnames : c₁.labelNames ⊆ labels ∧ numberedLabel l ∈ labels ∧ c₂.labelNames ⊆ labels
          ∧ numberedLabel (l + 1) ∈ labels := by
        simpa [hc.labelNames_eq] using hlabels
      obtain ⟨hthen, helse, hrest, hend⟩ := hnames
      simp only [Program.completeIn_append, Program.completeIn_cons]
      exact ⟨hc.complete labels, complete_jumpIfFalse hc.isPresent helse, ih hthen,
        complete_jump hend, complete_label _ _, ih' hrest, complete_label _ _,
        Program.completeIn_nil⟩
  | @«while» k l k₁ k' l' _ _ _ _ c c₁ hc _ ih =>
      have hnames : numberedLabel l ∈ labels ∧ c₁.labelNames ⊆ labels
          ∧ numberedLabel (l + 1) ∈ labels := by
        simpa [hc.labelNames_eq] using hlabels
      obtain ⟨hstart, hbody, hend⟩ := hnames
      simp only [Program.completeIn_append, Program.completeIn_cons]
      exact ⟨complete_label _ _, hc.complete labels, complete_jumpIfFalse hc.isPresent hend,
        ih hbody, complete_jump hstart, complete_label _ _, Program.completeIn_nil⟩
  | @function k l k' l' _ _ _ params _ c _ ih =>
      have hbody : c.labelNames ⊆ labels := by simpa using hlabels
      have hparams : ((params.map Param.name).map Operand.var ++ []).all (·.isPresent) := by
        simp [Operand.isPresent, Operand.var]
      simp only [Program.completeIn_append, Program.completeIn_cons]
      exact ⟨⟨by simp, hparams, by simp [InstrKind.isJump]⟩, ih hbody,
        ⟨by simp, rfl, by simp [InstrKind.isJump]⟩, Program.completeIn_nil⟩

/-- Generated code is well formed. -/
theorem wellFormed_of_generate {program : List Stmt} {table table' : SymbolTable} {p : Program}
    (h : generate program table = (.ok p, table')) :
  p.WellFormed
  := by
  obtain ⟨k, l, hp⟩ := performs_of_generate h
  exact ⟨hp.labelNames_nodup, hp.balanced, hp.complete (List.Subset.refl _)⟩

end ThreeAddress
