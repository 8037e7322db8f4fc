import Mathlib.Logic.Relation
import ThreeAddress.Proofs.Code.Execution
import ThreeAddress.Proofs.Code.Fragments
import ThreeAddress.Proofs.Flow.ControlFlow
import ThreeAddress.Register.LiveRange

/-!
# Liveness along the control flow

A variable is live at a place of a program if there is a way along the control flow from there to an
instruction that reads it, without one that writes it in between.  Control goes from an instruction
to the next one of its block, and along the edges from the last instruction of a block.

A variable that is live at a place of generated code and does not occur before it is live at the
start already.  A variable that is live at a place and does not occur from there on is live because
of a jump back over that place.
-/

namespace ThreeAddress

namespace Graph

/-- Control can go from the instruction at place `n` to the one at place `n'`. -/
def Follows (g : Graph) (n n' : Nat) : Prop :=
  (∃ b ∈ g.blockList, b.start ≤ n ∧ (n : Int) < b.stop ∧ n' = n + 1)
    ∨ ∃ b ∈ g.blockList, ∃ t ∈ g.blockList, g.leads b t ∧ b.stop = n ∧ t.start = n'

/-- Every place of a program lies in a stretch. -/
theorem exists_cut {p : Program} {n : Nat} (h : n < p.length) :
  ∃ a b, (a, b) ∈ cuts p ∧ a ≤ n ∧ n ≤ b
  := by
  have hmain : ∀ {start cs}, Tiles p.length start cs → start ≤ n →
      ∃ a b, (a, b) ∈ cs ∧ a ≤ n ∧ n ≤ b := by
    intro start cs htiles hle
    induction htiles with
    | done => omega
    | @next a b rest hab _ ih =>
        by_cases hb : n ≤ b
        · use a, b, List.mem_cons_self, hle
        · obtain ⟨a', b', hmem, h⟩ := ih (by omega)
          use a', b', List.mem_cons_of_mem _ hmem
  apply hmain (tiles_cuts p) (Nat.zero_le n)

/-- The exit of an instruction that is not a jump leads to the next place. -/
theorem targets_exitAt_of_not_jump {p : Program} {n : Nat} {i : Instr} (hi : p[n]? = some i)
    (hkind : i.kind.isJump = false) :
  (exitAt p n).targets.map (·.1) = (nextPlace p n).toList
  := by
  rw [exitAt, hi]
  dsimp only
  rw [exitOf_of_not_jump hkind]
  simp [Function.comp_def]

/-- In the graph of a program control goes from an instruction where its exit leads. -/
theorem follows_build_iff {p : Program} {n n' : Nat} :
  (build p).Follows n n' ↔ n' ∈ (exitAt p n).targets.map (·.1)
  := by
  rw [Follows, blockList_build]
  simp only [List.mem_map, exists_exists_and_eq_and, blockOf_start, blockOf_stop]
  constructor
  · rintro (⟨⟨a, b⟩, hab, hstart, hstop, rfl⟩ | ⟨⟨a, b⟩, hab, ⟨a', b'⟩, hab', hleads, hstop, hstart⟩)
    · have hlt := stop_lt_of_mem_cuts hab
      dsimp only at hstart hstop hlt
      have hn : n < p.length := by omega
      have hi := List.getElem?_eq_getElem hn
      have hkind : p[n].kind.isJump = false := by
        rw [Bool.eq_false_iff]
        intro hjump
        have := jump_in_cut hab hi (by omega) (by omega) hjump
        omega
      have htargets := targets_exitAt_of_not_jump hi hkind
      rw [← List.mem_map, htargets, nextPlace, if_pos (by omega)]
      simp
    · rw [leads_build hab, decide_eq_true_iff, List.mem_map] at hleads
      dsimp only at hstop hstart
      obtain rfl : b = n := by omega
      obtain rfl : a' = n' := by omega
      apply hleads
  · intro h
    rw [← List.mem_map] at h
    have hn : n < p.length := by
      by_contra hge
      rw [exitAt, List.getElem?_eq_none (by omega)] at h
      simp at h
    obtain ⟨a, b, hab, ha, hb⟩ := exists_cut hn
    by_cases hstop : n = b
    · right
      subst hstop
      obtain ⟨⟨m, tag⟩, hm, rfl⟩ := List.mem_map.mp h
      have hleader := isLeader_of_mem_targets hab hm
      rw [← mem_leaders, ← map_fst_cuts] at hleader
      obtain ⟨d, hd, rfl⟩ := List.mem_map.mp hleader
      use (a, n), hab, d, hd
      rw [leads_build hab]
      simp [h]
    · left
      have hi := List.getElem?_eq_getElem hn
      have hkind : p[n].kind.isJump = false := by
        rw [Bool.eq_false_iff]
        intro hjump
        apply hstop (jump_in_cut hab hi ha hb hjump)
      rw [targets_exitAt_of_not_jump hi hkind, nextPlace] at h
      use (a, b), hab
      simp only [Option.mem_toList, Option.ite_none_right_eq_some, Option.some.injEq] at h
      dsimp only
      omega

/-- Control goes from an instruction to the next one, unless it is an unconditional jump, and from a
jump to its label. -/
theorem follows_cases_of_kind {p : Program} {n n' : Nat} (h : (build p).Follows n n') :
  ∃ i, p[n]? = some i ∧ (i.kind ≠ .jump ∧ n' = n + 1
    ∨ i.kind.isJump ∧ p.labelIndex? i.label = some n')
  := by
  rw [follows_build_iff, exitAt] at h
  split at h
  · next i hi =>
    use i, hi
    have hnext : ∀ tag : Text, n' ∈ ((nextPlace p n).toList.map (·, tag)).map (·.1) → n' = n + 1 := by
      intro tag h
      simp only [nextPlace, List.map_map, List.mem_map, Option.mem_toList,
        Option.ite_none_right_eq_some, Option.some.injEq, Function.comp_apply] at h
      obtain ⟨m, ⟨-, rfl⟩, rfl⟩ := h
      rfl
    obtain hkind | hkind | hkind := kind_cases i.kind
    · right
      rw [exitOf_of_jump hkind] at h
      obtain ⟨⟨m, tag⟩, hm, rfl⟩ := List.mem_map.mp h
      use by rw [hkind]; rfl
      apply (mem_jumpExit.mp hm).1
    · rw [exitOf_of_conditional hkind, List.map_append, List.mem_append] at h
      obtain h | h := h
      · right
        obtain ⟨⟨m, tag⟩, hm, rfl⟩ := List.mem_map.mp h
        use isJump_of_isConditional hkind
        apply (mem_jumpExit.mp hm).1
      · left
        refine ⟨?_, hnext _ h⟩
        intro hjump
        rw [hjump] at hkind
        cases hkind
    · left
      rw [exitOf_of_not_jump hkind] at h
      refine ⟨?_, hnext _ h⟩
      intro hjump
      rw [hjump] at hkind
      cases hkind
  · simp at h

/-- Control goes from an instruction to the next one or, from a jump, to its label. -/
theorem follows_cases {p : Program} {n n' : Nat} (h : (build p).Follows n n') :
  n' = n + 1 ∨ ∃ i, p[n]? = some i ∧ i.kind.isJump ∧ p.labelIndex? i.label = some n'
  := by
  obtain ⟨i, hi, ⟨-, hnext⟩ | hjump⟩ := follows_cases_of_kind h
  · left
    apply hnext
  · right
    use i, hi, hjump.1, hjump.2

/-- Control goes on after every instruction but an unconditional jump. -/
theorem follows_next {p : Program} {n : Nat} {i : Instr} (hi : p[n]? = some i)
    (hkind : i.kind ≠ .jump) (hn : n + 1 < p.length) :
  (build p).Follows n (n + 1)
  := by
  rw [follows_build_iff, exitAt, hi]
  dsimp only
  obtain hjump | hcond | hnot := kind_cases i.kind
  · contradiction
  · rw [exitOf_of_conditional hcond]
    simp [nextPlace, hn]
  · rw [exitOf_of_not_jump hnot]
    simp [nextPlace, hn]

/-- Control can go from a jump to its label. -/
theorem follows_label {p : Program} {n n' : Nat} {i : Instr} (hi : p[n]? = some i)
    (hkind : i.kind.isJump) (hlabel : p.labelIndex? i.label = some n') :
  (build p).Follows n n'
  := by
  rw [follows_build_iff, exitAt, hi]
  dsimp only
  obtain hjump | hcond | hnot := kind_cases i.kind
  · rw [exitOf_of_jump hjump, List.mem_map]
    use (n', []), mem_jumpExit.mpr ⟨hlabel, rfl⟩
  · rw [exitOf_of_conditional hcond, List.map_append, List.mem_append]
    left
    apply List.mem_map_of_mem (mem_jumpExit.mpr ⟨hlabel, rfl⟩)
  · rw [hnot] at hkind
    cases hkind

end Graph

/-! ### Liveness -/

namespace Instr

/-- The variables that an instruction writes. -/
def writes (i : Instr) : List Text := (i.defs.filter (·.isVariable)).map (·.text)

/-- The variables that an instruction reads. -/
def reads (i : Instr) : List Text := (i.uses.filter (·.isVariable)).map (·.text)

theorem mem_mentioned {i : Instr} {v : Text} :
  v ∈ i.mentioned ↔ v ∈ i.writes ∨ v ∈ i.reads
  := by
  rw [mentioned, operands, List.filter_append, List.map_append, List.mem_append]
  rfl

end Instr

namespace Program

/-- The variable `v` occurs in the instruction at place `n`. -/
def Occurs (p : Program) (v : Text) (n : Nat) : Prop := ∃ i, p[n]? = some i ∧ v ∈ i.mentioned

/-- The variable `v` is live before the instruction at place `n`: the instruction reads it, or does
not write it and `v` is live before one that can follow. -/
inductive LiveIn (p : Program) (v : Text) : Nat → Prop
  | read {n i} : p[n]? = some i → v ∈ i.reads → LiveIn p v n
  | pass {n n' i} :
      p[n]? = some i → v ∉ i.writes → (Graph.build p).Follows n n' → LiveIn p v n' → LiveIn p v n

/-- The variable `v` is live after the instruction at place `n`. -/
def LiveOut (p : Program) (v : Text) (n : Nat) : Prop :=
  ∃ n', (Graph.build p).Follows n n' ∧ p.LiveIn v n'

variable {p : Program} {u v : Text} {n n' : Nat}

/-- The equation of liveness. -/
theorem liveIn_iff :
  p.LiveIn v n ↔ ∃ i, p[n]? = some i ∧ (v ∈ i.reads ∨ p.LiveOut v n ∧ v ∉ i.writes)
  := by
  constructor
  · intro h
    cases h with
    | @read _ i hi hread => use i, hi, .inl hread
    | @pass _ n' i hi hwrite hn h => use i, hi, .inr ⟨⟨n', hn, h⟩, hwrite⟩
  · rintro ⟨i, hi, hread | ⟨⟨n', hn, h⟩, hwrite⟩⟩
    · apply LiveIn.read hi hread
    · apply LiveIn.pass hi hwrite hn h

/-- What is live together after an instruction is live together before some instruction: control can
go two ways only after conditional jumps, and these write nothing. -/
theorem exists_liveIn_of_liveOut (hu : p.LiveOut u n) (hv : p.LiveOut v n) :
  ∃ m, p.LiveIn u m ∧ p.LiveIn v m
  := by
  obtain ⟨m, hm, hu⟩ := hu
  obtain ⟨m', hm', hv⟩ := hv
  by_cases heq : m = m'
  · use m, hu, heq ▸ hv
  · use n
    obtain ⟨i, hi, hkind⟩ : ∃ i, p[n]? = some i ∧ i.kind.isJump := by
      obtain rfl | ⟨i, hi, hkind, -⟩ := Graph.follows_cases hm
      · obtain rfl | ⟨i, hi, hkind, -⟩ := Graph.follows_cases hm'
        · contradiction
        · use i, hi
      · use i, hi
    have hwrites : i.writes = [] := by
      rw [Instr.writes, Instr.defs]
      cases hk : i.kind with
      | jump | jumpIfFalse | jumpIfTrue => rfl
      | _ =>
          rw [hk] at hkind
          cases hkind
    constructor
    · apply LiveIn.pass hi (by simp [hwrites]) hm hu
    · apply LiveIn.pass hi (by simp [hwrites]) hm' hv

/-- The variables `u` and `v` are live at the boundary before or at the boundary after the
instruction at place `n`. -/
def LiveTogether (p : Program) (u v : Text) (n : Nat) : Prop :=
  p.LiveIn u n ∧ p.LiveIn v n ∨ p.LiveOut u n ∧ p.LiveOut v n

theorem LiveTogether.exists_liveIn (h : p.LiveTogether u v n) :
  ∃ m, p.LiveIn u m ∧ p.LiveIn v m
  := by
  obtain h | ⟨hu, hv⟩ := h
  · use n
  · apply exists_liveIn_of_liveOut hu hv

/-- Control can go from `n` to `n'` without a step back. -/
def Forward (p : Program) : Nat → Nat → Prop :=
  Relation.ReflTransGen fun a b => a < b ∧ (Graph.build p).Follows a b

theorem Forward.le (h : p.Forward n n') :
  n ≤ n'
  := by
  induction h with
  | refl => apply Nat.le_refl
  | tail _ h ih => omega

/-- A variable that is live at a place and does not occur between `n` and that place is live at `n`,
if control can go there without a step back. -/
theorem LiveIn.of_forward (hforward : p.Forward n n') (hlive : p.LiveIn v n')
    (h : ∀ m, m < n' → ¬ p.Occurs v m) :
  p.LiveIn v n
  := by
  induction hforward using Relation.ReflTransGen.head_induction_on with
  | refl => apply hlive
  | @head a b hab hb ih =>
      have hlt : a < n' := Nat.lt_of_lt_of_le hab.1 (Forward.le hb)
      have hlen : a < p.length := by
        obtain ⟨j, hj, -⟩ := liveIn_iff.mp hlive
        have := (List.getElem?_eq_some_iff.mp hj).1
        omega
      apply LiveIn.pass (List.getElem?_eq_getElem hlen) _ hab.2 ih
      intro hwrite
      apply h a hlt
      use p[a], List.getElem?_eq_getElem hlen
      apply Instr.mem_mentioned.mpr (.inl hwrite)

/-- A variable that is live at a place and does not occur from there on is live at an earlier place,
to which a jump leads back. -/
theorem LiveIn.exists_jump_back (hlive : p.LiveIn v n) {k : Nat} (hk : k ≤ n)
    (h : ∀ m, k ≤ m → ¬ p.Occurs v m) :
  ∃ s e i, s < k ∧ k ≤ e ∧ p[e]? = some i ∧ i.kind.isJump ∧ p.labelIndex? i.label = some s
    ∧ p.LiveIn v s
  := by
  induction hlive with
  | @read n i hi hread =>
      apply absurd _ (h n hk)
      use i, hi
      apply Instr.mem_mentioned.mpr (.inr hread)
  | @pass n n' i hi hwrite hfollows hlive ih =>
      by_cases hn' : k ≤ n'
      · apply ih hn'
      · obtain rfl | ⟨j, hj, hkind, hlabel⟩ := Graph.follows_cases hfollows
        · omega
        · use n', n, j, by omega, hk, hj, hkind, hlabel

/-! ### Every place of generated code can be reached without a step back -/

/-- Every place of the code `c`, which stands at `n`, and the place after it can be reached from `n`
without a step back. -/
def Spans (p : Program) (n : Nat) (c : Program) : Prop :=
  ∀ j, j ≤ c.length → n + j < p.length → p.Forward n (n + j)

namespace Spans

theorem nil (p : Program) (n : Nat) :
  p.Spans n []
  := by
  intro j hj _
  obtain rfl : j = 0 := Nat.le_zero.mp hj
  apply Relation.ReflTransGen.refl

theorem append {c c' : Program} (h : p.Spans n c) (h' : p.Spans (n + c.length) c') :
  p.Spans n (c ++ c')
  := by
  intro j hj hlt
  by_cases hle : j ≤ c.length
  · apply h j hle hlt
  · rw [List.length_append] at hj
    have htail := h' (j - c.length) (by omega) (by omega)
    rw [show n + c.length + (j - c.length) = n + j by omega] at htail
    apply (h c.length (Nat.le_refl _) (by omega)).trans htail

/-- Control goes on after an instruction that is not an unconditional jump. -/
theorem cons {i : Instr} {c : Program} (hi : p[n]? = some i) (hkind : i.kind ≠ .jump)
    (h : p.Spans (n + 1) c) :
  p.Spans n (i :: c)
  := by
  intro j hj hlt
  cases j with
  | zero => apply Relation.ReflTransGen.refl
  | succ j =>
      have hstep := Graph.follows_next hi hkind (by omega)
      have htail := h j (by simpa using hj) (by omega)
      rw [show n + 1 + j = n + (j + 1) by omega] at htail
      apply Relation.ReflTransGen.head ⟨by omega, hstep⟩ htail

/-- Code after an unconditional jump can be reached if a conditional jump leads there. -/
theorem branch {i j : Instr} {c c' : Program} (hi : p[n]? = some i) (hkind : i.kind.isConditional)
    (hlabel : p.labelIndex? i.label = some (n + 1 + c.length + 1)) (h : p.Spans (n + 1) c)
    (h' : p.Spans (n + 1 + c.length + 1) c') :
  p.Spans n (i :: (c ++ j :: c'))
  := by
  have hjump := Graph.isJump_of_isConditional hkind
  have hfront : p.Spans n (i :: c) := by
    apply cons hi _ h
    intro heq
    rw [heq] at hkind
    cases hkind
  intro m hm hlt
  by_cases hle : m ≤ c.length + 1
  · apply hfront m (by simpa using hle) hlt
  · rw [List.length_cons, List.length_append, List.length_cons] at hm
    have htail := h' (m - (c.length + 2)) (by omega) (by omega)
    rw [show n + 1 + c.length + 1 + (m - (c.length + 2)) = n + m by omega] at htail
    apply Relation.ReflTransGen.head ⟨by omega, Graph.follows_label hi hjump hlabel⟩ htail

end Spans

end Program

/-- The code of expressions can be reached place by place. -/
theorem Computes.spans {p : Program} {k k' n : Nat} {es : List Expr} {xs : List Operand}
    {c : Program} (h : Computes k es xs c k') (hc : p.HoldsAt n c) :
  p.Spans n c
  := by
  induction h generalizing n with
  | nil | literal | ident => apply Program.Spans.nil
  | cons _ _ ih ih' => apply (ih hc.append.1).append (ih' hc.append.2)
  | group _ ih => apply ih hc
  | binary _ _ ih | unary _ _ ih | call _ ih =>
      apply (ih hc.append.1).append
      apply Program.Spans.cons hc.append.2.cons.1 (by simp) (.nil _ _)

/-- The code of statements can be reached without a step back from its start. -/
theorem Performs.spans {p : Program} (hp : p.labelNames.Nodup) {k l k' l' n : Nat} {ss : List Stmt}
    {c : Program} (h : Performs k l ss c k' l') (hc : p.HoldsAt n c) :
  p.Spans n c
  := by
  induction h generalizing n with
  | nil => apply Program.Spans.nil
  | cons _ _ ih ih' => apply (ih hc.append.1).append (ih' hc.append.2)
  | letVar h | assign h | retValue h | print h =>
      apply (h.spans hc.append.1).append
      apply Program.Spans.cons hc.append.2.cons.1 (by simp) (.nil _ _)
  | ret => apply Program.Spans.cons hc.cons.1 (by simp) (.nil _ _)
  | expr h => apply h.spans hc
  | ifElse h _ _ ih ih' =>
      obtain ⟨hbranch, hrest⟩ := hc.append.2.cons
      obtain ⟨hjump, helse⟩ := hrest.append.2.cons
      obtain ⟨helseAt, hlast⟩ := helse.cons
      have helseIndex := Program.labelIndex?_of_labelAt hp helse.labelAt
      apply (h.spans hc.append.1).append
      apply Program.Spans.branch hbranch rfl helseIndex (ih hrest.append.1)
      apply Program.Spans.cons helseAt (by simp)
      apply (ih' hlast.append.1).append
      apply Program.Spans.cons hlast.append.2.cons.1 (by simp) (.nil _ _)
  | «while» h _ ih =>
      obtain ⟨hstart, htest⟩ := hc.cons
      obtain ⟨hbranch, hbody⟩ := htest.append.2.cons
      obtain ⟨hback, hstop⟩ := hbody.append.2.cons
      apply Program.Spans.cons hstart (by simp)
      apply (h.spans htest.append.1).append
      apply Program.Spans.branch hbranch rfl (Program.labelIndex?_of_labelAt hp hstop.labelAt)
        (ih hbody.append.1)
      apply Program.Spans.cons hstop.cons.1 (by simp) (.nil _ _)
  | function _ ih =>
      apply Program.Spans.cons hc.cons.1 (by simp)
      apply (ih hc.cons.2.append.1).append
      apply Program.Spans.cons hc.cons.2.append.2.cons.1 (by simp) (.nil _ _)

end ThreeAddress
