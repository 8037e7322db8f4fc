import ThreeAddress.Proofs.Code.Fragments
import ThreeAddress.Proofs.Flow.Liveness

/-!
# Temporaries

In generated code a temporary is written once, and read at most once, by a later instruction of the
same block.  `Program.Ready p x` says that the operand `x` was written in the code `p` and that only
computations stand from there on.  The code of expressions consists of computations; hence the
temporaries that it leaves behind are ready at its end, where the instruction stands that reads
them, be it another computation or the one that a statement ends its test or its value with.
-/

namespace ThreeAddress

theorem Operand.ofTemp_injective :
  Function.Injective Operand.ofTemp
  := by
  intro m n h
  have htemp : (m : Int) = n := congrArg Operand.temp h
  omega

theorem Operand.isTemp_ofTemp (n : Nat) :
  (ofTemp n).isTemp
  := rfl

namespace Program

/-- The temporaries that the instructions of a program write, in order. -/
def tempTargets (c : Program) : List Operand := (c.filter (·.target.isTemp)).map (·.target)

/-- The temporaries that the instructions of a program read, in order. -/
def tempReads (c : Program) : List Operand := (c.flatMap (·.uses)).filter (·.isTemp)

/-- The operand `x` was written in the code `p`, and only computations stand from there on. -/
def Ready (p : Program) (x : Operand) : Prop :=
  ∃ (d : Nat) (i : Instr), p[d]? = some i ∧ i.target = x
    ∧ ∀ (m : Nat) (j : Instr), d ≤ m → p[m]? = some j → j.isComputation

/-- Every instruction reads only temporaries that are ready where it stands. -/
def ReadsReady (p : Program) : Prop :=
  ∀ (n : Nat) (i : Instr), p[n]? = some i → ∀ x ∈ i.uses, x.isTemp → Ready (p.take n) x

variable {c c' : Program} {i : Instr} {x : Operand}

@[simp]
theorem tempTargets_nil :
  tempTargets [] = []
  := rfl

@[simp]
theorem tempTargets_append (c c' : Program) :
  tempTargets (c ++ c') = c.tempTargets ++ c'.tempTargets
  := by
  simp [tempTargets]

@[simp]
theorem tempTargets_cons (i : Instr) (c : Program) :
  tempTargets (i :: c) = if i.target.isTemp then i.target :: c.tempTargets else c.tempTargets
  := by
  rw [tempTargets, List.filter_cons]
  split
  · rfl
  · rfl

@[simp]
theorem tempReads_nil :
  tempReads [] = []
  := rfl

@[simp]
theorem tempReads_append (c c' : Program) :
  tempReads (c ++ c') = c.tempReads ++ c'.tempReads
  := by
  simp [tempReads]

@[simp]
theorem tempReads_cons (i : Instr) (c : Program) :
  tempReads (i :: c) = i.uses.filter (·.isTemp) ++ c.tempReads
  := by
  simp [tempReads]

/-! ### Operands that are ready -/

/-- More code in front changes nothing. -/
theorem Ready.append_left (h : c'.Ready x) (c : Program) :
  (c ++ c').Ready x
  := by
  obtain ⟨d, i, hi, htarget, hlater⟩ := h
  refine ⟨c.length + d, i, ?_, htarget, ?_⟩
  · rw [List.getElem?_append_right (by omega), Nat.add_sub_cancel_left, hi]
  · intro m j hm hj
    rw [List.getElem?_append_right (by omega)] at hj
    exact hlater (m - c.length) j (by omega) hj

/-- Computations that follow change nothing. -/
theorem Ready.append_right (h : c.Ready x) (hc' : ∀ i ∈ c', i.isComputation) :
  (c ++ c').Ready x
  := by
  obtain ⟨d, i, hi, htarget, hlater⟩ := h
  have hd := (List.getElem?_eq_some_iff.mp hi).1
  refine ⟨d, i, ?_, htarget, ?_⟩
  · rw [List.getElem?_append_left hd, hi]
  · intro m j hm hj
    by_cases hlt : m < c.length
    · rw [List.getElem?_append_left hlt] at hj
      exact hlater m j hm hj
    · rw [List.getElem?_append_right (by omega)] at hj
      exact hc' j (List.mem_of_getElem? hj)

/-- What the last instruction computes is ready. -/
theorem ready_concat (c : Program) (hi : i.isComputation) :
  (c ++ [i]).Ready i.target
  := by
  apply Ready.append_left
  refine ⟨0, i, rfl, rfl, ?_⟩
  intro m j _ hj
  rw [List.mem_singleton.mp (List.mem_of_getElem? hj)]
  exact hi

theorem readsReady_nil :
  ReadsReady []
  := by
  intro n i hi
  cases hi

theorem ReadsReady.append (h : c.ReadsReady) (h' : c'.ReadsReady) :
  (c ++ c').ReadsReady
  := by
  intro n i hi x hx htemp
  by_cases hn : n < c.length
  · rw [List.getElem?_append_left hn] at hi
    rw [List.take_append_of_le_length (by omega)]
    exact h n i hi x hx htemp
  · rw [List.getElem?_append_right (by omega)] at hi
    rw [List.take_append, List.take_of_length_le (by omega)]
    exact (h' _ i hi x hx htemp).append_left c

/-- An instruction may follow that reads what is ready. -/
theorem ReadsReady.concat (h : c.ReadsReady) (hi : ∀ x ∈ i.uses, x.isTemp → c.Ready x) :
  (c ++ [i]).ReadsReady
  := by
  intro n j hj x hx htemp
  by_cases hn : n < c.length
  · rw [List.getElem?_append_left hn] at hj
    rw [List.take_append_of_le_length (by omega)]
    exact h n j hj x hx htemp
  · rw [List.getElem?_append_right (by omega), List.getElem?_singleton] at hj
    split at hj
    · next hlast =>
      obtain rfl := Option.some.inj hj
      rw [List.take_append_of_le_length (by omega), List.take_of_length_le (by omega)]
      exact hi x hx htemp
    · cases hj

theorem ReadsReady.append_cons (h : ReadsReady (c ++ [i])) (h' : c'.ReadsReady) :
  ReadsReady (c ++ i :: c')
  := by
  rw [List.append_cons]
  exact h.append h'

/-- An instruction that reads nothing may stand anywhere. -/
theorem ReadsReady.cons (hi : i.uses = []) (h : c.ReadsReady) :
  ReadsReady (i :: c)
  := by
  have hfirst : ReadsReady ([] ++ [i]) := by
    apply readsReady_nil.concat
    rw [hi]
    intro x hx
    cases hx
  exact hfirst.append_cons h

end Program

/-! ### Operands that are distinct -/

/-- The operands are distinct temporaries with numbers from `k` up to `k'`. -/
structure DistinctTemps (k k' : Nat) (xs : List Operand) : Prop where
  le : k ≤ k'
  nodup : xs.Nodup
  between : ∀ x ∈ xs, ∃ n, x = .ofTemp n ∧ k ≤ n ∧ n < k'

namespace DistinctTemps

variable {k k₁ k' : Nat} {xs ys : List Operand}

theorem nil (k : Nat) :
  DistinctTemps k k []
  := ⟨Nat.le_refl k, List.nodup_nil, by simp⟩

theorem append (h : DistinctTemps k k₁ xs) (h' : DistinctTemps k₁ k' ys) :
  DistinctTemps k k' (xs ++ ys)
  := by
  refine ⟨Nat.le_trans h.le h'.le, ?_, ?_⟩
  · rw [List.nodup_append']
    refine ⟨h.nodup, h'.nodup, ?_⟩
    intro x hx hy
    obtain ⟨m, rfl, -, hm⟩ := h.between x hx
    obtain ⟨n, heq, hn, -⟩ := h'.between _ hy
    have := Operand.ofTemp_injective heq
    omega
  · have hle := h.le
    have hle' := h'.le
    intro x hx
    obtain hx | hx := List.mem_append.mp hx
    · obtain ⟨n, rfl, hn⟩ := h.between x hx
      exact ⟨n, rfl, by omega⟩
    · obtain ⟨n, rfl, hn⟩ := h'.between x hx
      exact ⟨n, rfl, by omega⟩

/-- The next temporary is another one. -/
theorem concat (h : DistinctTemps k k' xs) :
  DistinctTemps k (k' + 1) (xs ++ [.ofTemp k'])
  := by
  apply h.append
  refine ⟨Nat.le_succ k', List.nodup_singleton _, ?_⟩
  intro x hx
  exact ⟨k', List.mem_singleton.mp hx, Nat.le_refl k', Nat.lt_succ_self k'⟩

theorem perm (h : DistinctTemps k k' xs) (hperm : ys.Perm xs) :
  DistinctTemps k k' ys
  := ⟨h.le, hperm.nodup_iff.mpr h.nodup, fun x hx => h.between x (hperm.mem_iff.mp hx)⟩

end DistinctTemps

/-! ### The code of expressions -/

namespace Computes

variable {k k' : Nat} {es : List Expr} {xs : List Operand} {c : Program}

/-- The temporaries that are written continue the numbering. -/
theorem range_append_tempTargets (h : Computes k es xs c k') :
  (List.range k).map .ofTemp ++ c.tempTargets = (List.range k').map .ofTemp
  := by
  induction h with
  | nil | literal | ident => apply List.append_nil
  | cons _ _ ih ih' => rw [Program.tempTargets_append, ← List.append_assoc, ih, ih']
  | group _ ih => exact ih
  | binary _ _ ih | unary _ _ ih | call _ ih =>
      rw [Program.tempTargets_append, ← List.append_assoc, ih, List.range_succ, List.map_append]
      rfl

/-- What is read on the way and what is left at the end are different temporaries. -/
theorem distinctTemps (h : Computes k es xs c k') :
  DistinctTemps k k' (c.tempReads ++ xs.filter (·.isTemp))
  := by
  induction h with
  | nil | literal | ident => apply DistinctTemps.nil
  | @cons _ _ _ _ _ x xs c c' _ _ ih ih' =>
      apply (ih.append ih').perm
      rw [Program.tempReads_append, ← List.singleton_append, List.filter_append, List.append_assoc,
        List.append_assoc]
      exact (List.perm_append_comm_assoc ..).append_left _
  | group _ ih => exact ih
  | binary _ _ ih | unary _ _ ih | call _ ih =>
      apply ih.concat.perm
      rw [Program.tempReads_append, Program.tempReads_cons, Program.tempReads_nil, List.append_nil]
      rfl

theorem readsReady_and_ready (h : Computes k es xs c k') :
  c.ReadsReady ∧ ∀ x ∈ xs, x.isTemp → c.Ready x
  := by
  induction h with
  | nil => exact ⟨Program.readsReady_nil, by simp⟩
  | literal | ident =>
      use Program.readsReady_nil
      rw [List.forall_mem_singleton]
      intro htemp
      cases htemp
  | @cons _ _ _ _ _ _ _ c _ _ h' ih ih' =>
      obtain ⟨hreads, hready⟩ := ih
      obtain ⟨hreads', hready'⟩ := ih'
      use hreads.append hreads'
      rw [List.forall_mem_cons]
      constructor
      · intro htemp
        apply (hready _ List.mem_cons_self htemp).append_right
        exact fun i hi => (h'.made i hi).1
      · intro y hy htemp
        exact (hready' y hy htemp).append_left c
  | group _ ih => exact ih
  | @binary _ _ _ _ _ _ _ _ c _ _ ih | @unary _ _ _ _ _ _ c _ _ ih | @call _ _ _ _ _ _ _ c _ ih =>
      obtain ⟨hreads, hready⟩ := ih
      use hreads.concat hready
      rw [List.forall_mem_singleton]
      exact fun _ => Program.ready_concat c rfl

/-- An instruction that reads what expressions were computed into may follow their code. -/
theorem readsReady_concat (h : Computes k es xs c k') {i : Instr} (hi : i.uses = xs) :
  (c ++ [i]).ReadsReady
  := by
  obtain ⟨hreads, hready⟩ := h.readsReady_and_ready
  apply hreads.concat
  rw [hi]
  exact hready

/-- An instruction that reads what expressions were computed into leaves nothing to be read. -/
theorem distinctTemps_concat (h : Computes k es xs c k') {i : Instr} (hi : i.uses = xs) :
  DistinctTemps k k' (Program.tempReads (c ++ [i]))
  := by
  rw [Program.tempReads_append, Program.tempReads_cons, Program.tempReads_nil, List.append_nil, hi]
  exact h.distinctTemps

end Computes

/-! ### The code of statements -/

namespace Performs

variable {k l k' l' : Nat} {ss : List Stmt} {c : Program}

/-- The temporaries that are written continue the numbering. -/
theorem range_append_tempTargets (h : Performs k l ss c k' l') :
  (List.range k).map .ofTemp ++ c.tempTargets = (List.range k').map .ofTemp
  := by
  induction h with
  | nil | ret => apply List.append_nil
  | cons _ _ ih ih' => rw [Program.tempTargets_append, ← List.append_assoc, ih, ih']
  | letVar h | assign h | retValue h | print h =>
      rw [Program.tempTargets_append, ← List.append_assoc, h.range_append_tempTargets]
      apply List.append_nil
  | expr h => exact h.range_append_tempTargets
  | ifElse h _ _ ih ih' =>
      rw [← ih', ← ih, ← h.range_append_tempTargets]
      simp [Operand.isTemp]
  | «while» h _ ih =>
      rw [← ih, ← h.range_append_tempTargets]
      simp [Operand.isTemp]
  | function _ ih =>
      rw [← ih]
      simp [Operand.isTemp]

/-- No temporary is read twice. -/
theorem distinctTemps (h : Performs k l ss c k' l') :
  DistinctTemps k k' c.tempReads
  := by
  induction h with
  | nil | ret => apply DistinctTemps.nil
  | cons _ _ ih ih' =>
      rw [Program.tempReads_append]
      exact ih.append ih'
  | letVar h | assign h | retValue h | print h => exact h.distinctTemps_concat rfl
  | @expr _ _ _ _ _ x _ h =>
      refine ⟨h.le, (List.nodup_append'.mp h.distinctTemps.nodup).1, ?_⟩
      intro y hy
      exact h.distinctTemps.between y (List.mem_append_left _ hy)
  | ifElse h _ _ ih ih' =>
      have htest := h.distinctTemps
      have hall := (htest.append ih).append ih'
      simpa [Instr.uses] using hall
  | «while» h _ ih =>
      have htest := h.distinctTemps
      have hall := htest.append ih
      simpa [Instr.uses] using hall
  | function _ ih => simpa [Instr.uses] using ih

theorem readsReady (h : Performs k l ss c k' l') :
  c.ReadsReady
  := by
  induction h with
  | nil => exact Program.readsReady_nil
  | cons _ _ ih ih' => exact ih.append ih'
  | letVar h | assign h | retValue h | print h => exact h.readsReady_concat rfl
  | ret => exact Program.readsReady_nil.cons rfl
  | expr h => exact h.readsReady_and_ready.1
  | ifElse h _ _ ih ih' =>
      apply (h.readsReady_concat rfl).append_cons
      exact ih.append (((ih'.append (Program.readsReady_nil.cons rfl)).cons rfl).cons rfl)
  | «while» h _ ih =>
      apply Program.ReadsReady.cons rfl
      apply (h.readsReady_concat rfl).append_cons
      exact ih.append ((Program.readsReady_nil.cons rfl).cons rfl)
  | function _ ih => exact (ih.append (Program.readsReady_nil.cons rfl)).cons rfl

end Performs

/-! ### Generated code -/

/-- An operand that is written and is a temporary is the target of its instruction. -/
theorem Instr.eq_target_of_mem_defs {i : Instr} {x : Operand} (hx : x ∈ i.defs) (htemp : x.isTemp) :
  x = i.target
  := by
  rw [Instr.defs] at hx
  split at hx
  · exact List.mem_singleton.mp hx
  · exact List.mem_singleton.mp hx
  · exact List.mem_singleton.mp hx
  · exact List.mem_singleton.mp hx
  · obtain ⟨name, -, rfl⟩ := List.mem_map.mp hx
    cases htemp
  · cases hx

/-- A computation is no label and no jump, and begins or ends no function. -/
theorem Instr.isStraight_of_isComputation {i : Instr} (h : i.isComputation) :
  i.kind ≠ .label ∧ i.kind.isJump = false ∧ i.kind ≠ .functionStart ∧ i.kind ≠ .functionEnd
  := by
  rw [isComputation] at h
  split at h
  · next hkind => simp [hkind, InstrKind.isJump]
  · next hkind => simp [hkind, InstrKind.isJump]
  · next hkind => simp [hkind, InstrKind.isJump]
  · cases h

/-- An instruction that reads something is no label and begins or ends no function. -/
theorem Instr.ne_of_mem_uses {i : Instr} {x : Operand} (hx : x ∈ i.uses) :
  i.kind ≠ .label ∧ i.kind ≠ .functionStart ∧ i.kind ≠ .functionEnd
  := by
  refine ⟨?_, ?_, ?_⟩
  all_goals
    intro hkind
    simp [uses, hkind] at hx

namespace Program

variable {p : Program}

/-- A temporary has one place where it is written, if those that are written are distinct. -/
theorem existsUnique_target (h : p.tempTargets.Nodup) {x : Operand} (hx : x ∈ p.tempTargets) :
  ∃! m : Nat, ∃ i, p[m]? = some i ∧ i.target = x
  := by
  obtain ⟨i, hi, rfl⟩ := List.mem_map.mp hx
  obtain ⟨hi, htemp⟩ := List.mem_filter.mp hi
  obtain ⟨m, hm⟩ := List.mem_iff_getElem?.mp hi
  have hpairs := List.pairwise_iff_getElem.mp (List.pairwise_filter.mp (List.pairwise_map.mp h))
  refine ⟨m, ⟨i, hm, rfl⟩, ?_⟩
  rintro m' ⟨j, hm', htarget⟩
  obtain ⟨hlt, rfl⟩ := List.getElem?_eq_some_iff.mp hm
  obtain ⟨hlt', rfl⟩ := List.getElem?_eq_some_iff.mp hm'
  have htemp' : p[m'].target.isTemp := by rw [htarget, htemp]
  obtain hless | heq | hless := Nat.lt_trichotomy m' m
  · exact absurd htarget (hpairs m' m hlt' hlt hless htemp' htemp)
  · exact heq
  · exact absurd htarget.symm (hpairs m m' hlt hlt' hless htemp htemp')

/-- A block goes on over computations, up to an instruction that is no label. -/
theorem le_of_computations {a b d m : Nat} (hab : (a, b) ∈ Graph.cuts p) (hd : d ≤ b)
    (hm : m < p.length) (hlabel : p[m].kind ≠ .label)
    (hstraight : ∀ (j : Nat) (v : Instr), d ≤ j → j < m → p[j]? = some v → v.isComputation) :
  m ≤ b
  := by
  by_contra hlt
  -- The place after the block is a leader, but neither a label nor the place after a jump.
  have hnext : Graph.nextPlace p b = some (b + 1) := if_pos (by omega)
  obtain ⟨j, hj, hleader⟩ := Graph.isLeader_nextPlace hab hnext
  have hlast := hstraight b p[b] hd (by omega) (List.getElem?_eq_getElem (by omega))
  obtain hzero | hkind | hbefore := hleader
  · omega
  · by_cases hend : b + 1 = m
    · subst hend
      rw [List.getElem?_eq_getElem hm] at hj
      exact hlabel (Option.some.inj hj ▸ hkind)
    · have hlater := hstraight (b + 1) j (by omega) (by omega) hj
      exact (Instr.isStraight_of_isComputation hlater).1 hkind
  · rw [Graph.jumpBefore, List.getElem?_eq_getElem (by omega)] at hbefore
    simp [(Instr.isStraight_of_isComputation hlast).2.1] at hbefore

/-- What is ready in a part of a program was written in the block that goes on after the part. -/
theorem Ready.blockAt?_eq {m : Nat} {x : Operand} (h : Ready (p.take m) x) (hm : m < p.length)
    (hlabel : p[m].kind ≠ .label) :
  ∃ (d : Nat) (i : Instr) (b : Block), d < m ∧ p[d]? = some i ∧ i.target = x
    ∧ (∀ (j : Nat) (v : Instr), d ≤ j → j < m → p[j]? = some v → v.isComputation)
    ∧ (Graph.build p).blockAt? d = some b ∧ (Graph.build p).blockAt? m = some b
  := by
  obtain ⟨d, i, hi, htarget, hlater⟩ := h
  have hd : d < m := by
    have := (List.getElem?_eq_some_iff.mp hi).1
    rw [List.length_take] at this
    omega
  rw [List.getElem?_take_of_lt hd] at hi
  have hstraight : ∀ (j : Nat) (v : Instr), d ≤ j → j < m → p[j]? = some v → v.isComputation := by
    intro j v hdj hjm hv
    exact hlater j v hdj (by rw [List.getElem?_take_of_lt hjm, hv])
  obtain ⟨a, b, hab, ha, hb⟩ := Graph.exists_cut (by omega : d < p.length)
  have hmb := le_of_computations hab hb hm hlabel hstraight
  exact ⟨d, i, _, hd, hi, htarget, hstraight, Graph.blockAt?_build hab ha hb,
    Graph.blockAt?_build hab (by omega) hmb⟩

/-- The temporaries of the program are those with the numbers below `n`.  Each is written once, and
read at most once, later in the same block. -/
structure SingleAssignment (p : Program) (n : Nat) : Prop where
  /-- There are no other temporaries. -/
  known : ∀ i ∈ p, ∀ x ∈ i.operands, x.isTemp → ∃ k < n, x = .ofTemp k
  /-- Of the instructions whose targets are temporaries, the first writes the first one, the second
  writes the second one, and so on. -/
  targets : (p.filter (·.target.isTemp)).map (·.target) = (List.range n).map .ofTemp
  written : ∀ k < n, ∃! m : Nat, ∃ i, p[m]? = some i ∧ i.target = .ofTemp k
  read : ∀ k, (p.flatMap (·.uses)).count (.ofTemp k) ≤ 1
  /-- Where a temporary is read, it was written before, with no label, no jump and no end of a
  function in between; the instruction that reads it may be a jump. -/
  straight : ∀ (m : Nat) (u : Instr) (k : Nat), p[m]? = some u → .ofTemp k ∈ u.uses →
    ∃ (d : Nat) (i : Instr) (b : Block), d < m ∧ p[d]? = some i ∧ i.target = .ofTemp k
      ∧ (∀ (j : Nat) (v : Instr), d < j → j ≤ m → p[j]? = some v →
        v.kind ≠ .label ∧ v.kind ≠ .functionStart ∧ v.kind ≠ .functionEnd
          ∧ (v.kind.isJump → j = m))
      ∧ (Graph.build p).blockAt? d = some b ∧ (Graph.build p).blockAt? m = some b

end Program

/-- In generated code every temporary is written once and read at most once, later in the same
block. -/
theorem generated_temporaries_single_assignment {program : List Stmt} {table table' : SymbolTable}
    {p : Program} (h : generate program table = (.ok p, table')) :
  ∃ n, p.SingleAssignment n
  := by
  obtain ⟨n, l, hp⟩ := performs_of_generate h
  have htargets : p.tempTargets = (List.range n).map .ofTemp := hp.range_append_tempTargets
  have hreads := hp.distinctTemps
  use n
  refine ⟨?_, htargets, ?_, ?_, ?_⟩
  · intro i hi x hx htemp
    obtain hdef | huse := List.mem_append.mp hx
    · obtain rfl := Instr.eq_target_of_mem_defs hdef htemp
      have hmem : i.target ∈ p.tempTargets :=
        List.mem_map_of_mem (List.mem_filter.mpr ⟨hi, htemp⟩)
      rw [htargets] at hmem
      obtain ⟨k, hk, heq⟩ := List.mem_map.mp hmem
      exact ⟨k, List.mem_range.mp hk, heq.symm⟩
    · have hmem : x ∈ p.tempReads :=
        List.mem_filter.mpr ⟨List.mem_flatMap.mpr ⟨i, hi, huse⟩, htemp⟩
      obtain ⟨k, heq, -, hk⟩ := hreads.between x hmem
      exact ⟨k, hk, heq⟩
  · intro k hk
    apply Program.existsUnique_target
    · rw [htargets]
      exact List.nodup_range.map Operand.ofTemp_injective
    · rw [htargets]
      exact List.mem_map_of_mem (List.mem_range.mpr hk)
  · intro k
    have hcount := List.nodup_iff_count_le_one.mp hreads.nodup (.ofTemp k)
    rwa [Program.tempReads, List.count_filter (Operand.isTemp_ofTemp k)] at hcount
  · intro m u k hu huse
    obtain ⟨hm, rfl⟩ := List.getElem?_eq_some_iff.mp hu
    obtain ⟨hlabel, hstart, hend⟩ := Instr.ne_of_mem_uses huse
    have hready := hp.readsReady m _ hu _ huse (Operand.isTemp_ofTemp k)
    obtain ⟨d, i, b, hd, hi, htarget, hstraight, hblock⟩ := hready.blockAt?_eq hm hlabel
    refine ⟨d, i, b, hd, hi, htarget, ?_, hblock⟩
    intro j v hdj hjm hv
    obtain rfl | hlt := Nat.eq_or_lt_of_le hjm
    · rw [hu] at hv
      obtain rfl := Option.some.inj hv
      exact ⟨hlabel, hstart, hend, fun _ => rfl⟩
    · obtain ⟨hlabel', hjump', hstart', hend'⟩ :=
        Instr.isStraight_of_isComputation (hstraight j v (by omega) hlt hv)
      refine ⟨hlabel', hstart', hend', ?_⟩
      intro hjump
      rw [hjump'] at hjump
      cases hjump

/-! ### A call in the test of a loop -/

def callInTest : List Stmt :=
  [.while {}
    (.binary {} .lt
      (.call {} "f" {} [.unary {} .neg (.ident {} "x"),
        .group {} (.binary {} .add (.ident {} "x") (.literal {} .number "1"))])
      (.literal {} .number "2"))
    [.print {} (.unary {} .not (.ident {} "y"))]]

def callInTestCode : Program :=
  [{ kind := .label, label := "L0" },
   { kind := .unary .neg, target := .ofTemp 0, source := .var "x" },
   { kind := .binary .add, target := .ofTemp 1, left := .var "x", right := .literal .number "1" },
   { kind := .call, target := .ofTemp 2, func := "f", args := [.ofTemp 0, .ofTemp 1] },
   { kind := .binary .lt, target := .ofTemp 3, left := .ofTemp 2, right := .literal .number "2" },
   { kind := .jumpIfFalse, cond := .ofTemp 3, label := "L1" },
   { kind := .unary .not, target := .ofTemp 4, source := .var "y" },
   { kind := .print, source := .ofTemp 4 },
   { kind := .jump, label := "L0" },
   { kind := .label, label := "L1" }]

theorem callInTest_single_assignment :
  ∃ table, generate callInTest {} = (.ok callInTestCode, table)
    ∧ callInTestCode.SingleAssignment 5
  := by
  have hcode : generate callInTest {} = (.ok callInTestCode, (generate callInTest {}).2) := by
    apply Prod.ext
    · decide +kernel
    · rfl
  obtain ⟨n, hn⟩ := generated_temporaries_single_assignment hcode
  obtain rfl : 5 = n := by
    have hlength : 5 = _ := congrArg List.length hn.targets
    rwa [List.length_map, List.length_range] at hlength
  exact ⟨_, hcode, hn⟩

end ThreeAddress
