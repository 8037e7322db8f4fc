import ThreeAddress.Proofs.Machine.Operation
import ThreeAddress.Proofs.Machine.Registers

/-!
# What machine code reads and writes

A register into which an operand is loaded is written where the operand is mentioned first, and
where another operand is assigned to it.  It is read where the operand is used, but that nothing is
written for the assignment of an operand to itself.
-/

namespace ThreeAddress

/-! ### Fetching -/

namespace Lowering

variable {table : Option SymbolTable} {s : Lowering} {o : Operand} {x : MachineInstr} {k : Nat}
variable {xs : List (Operand × Bool)} {y : Operand × Bool}

/-- Fetching an operand settles it and no other one. -/
theorem loadValue?_fetch_eq_none_iff :
  (s.fetch table y).loadValue? table o = none ↔ s.loadValue? table o = none ∨ y.1.key = o.key
  := by
  constructor
  · intro h
    by_cases hkey : y.1.key = o.key
    · right
      apply hkey
    · left
      rw [← h, fetch]
      have hregister : (s.register table y.1).1.loadValue? table o = s.loadValue? table o := by
        cases hv : s.loadValue? table y.1 with
        | none => rw [register_of_loadValue?_eq_none hv]
        | some v =>
            rw [register_of_loadValue? hv, loadValue?, loadValue?, load, List.lookup_cons,
              beq_eq_false_iff_ne.mpr (Ne.symm hkey)]
      dsimp only
      split
      · apply hregister.symm
      · apply hregister.symm
  · rintro (h | h)
    · apply (keeps_fetch s y o h).1
    · rw [← loadValue?_congr h]
      apply (settled_fetch s y).1

/-- Fetching operands settles them and no other one. -/
theorem loadValue?_fetchAll_eq_none_iff :
  (s.fetchAll table xs).loadValue? table o = none
    ↔ s.loadValue? table o = none ∨ ∃ y ∈ xs, y.1.key = o.key
  := by
  induction xs generalizing s with
  | nil => simp [fetchAll]
  | cons y xs ih =>
      rw [fetchAll, List.foldl_cons, ← fetchAll, ih, loadValue?_fetch_eq_none_iff, or_assoc]
      simp

/-- An operand that is not settled is loaded when it is fetched. -/
theorem exists_load (h : s.loadValue? table o ≠ none) (hmem : ∃ y ∈ xs, y.1.key = o.key) :
  ∃ before y rest v, xs = before ++ y :: rest ∧ y.1.key = o.key
    ∧ (s.fetchAll table before).loadValue? table y.1 = some v
  := by
  induction xs generalizing s with
  | nil => simp at hmem
  | cons y xs ih =>
      by_cases hkey : y.1.key = o.key
      · rw [← loadValue?_congr hkey, Option.ne_none_iff_exists'] at h
        obtain ⟨v, hv⟩ := h
        use [], y, xs, v, rfl, hkey, hv
      · have hfetch : (s.fetch table y).loadValue? table o ≠ none := by
          rw [Ne, loadValue?_fetch_eq_none_iff]
          rintro (hnone | heq)
          · apply h hnone
          · apply hkey heq
        obtain ⟨z, hz, hzkey⟩ := hmem
        obtain rfl | hz := List.mem_cons.mp hz
        · contradiction
        · obtain ⟨before, z, rest, v, rfl, hz, hv⟩ := ih hfetch ⟨z, hz, hzkey⟩
          use y :: before, z, rest, v, rfl, hz, hv

theorem fetchCode_append (s : Lowering) (xs ys : List (Operand × Bool)) :
  s.fetchCode table (xs ++ ys) = s.fetchCode table xs ++ (s.fetchAll table xs).fetchCode table ys
  := by
  induction xs generalizing s with
  | nil => rfl
  | cons x xs ih =>
      rw [List.cons_append, fetchCode, fetchCode, ih, List.append_assoc]
      rfl

/-- Everything that is written to fetch operands is written for one of them in its turn. -/
theorem exists_turn (h : (s.fetchCode table xs)[k]? = some x) :
  ∃ before y rest k', xs = before ++ y :: rest ∧ k = (s.fetchCode table before).length + k'
    ∧ ((s.fetchAll table before).operandCode table y)[k']? = some x
  := by
  induction xs generalizing s k with
  | nil => cases h
  | cons y xs ih =>
      rw [fetchCode] at h
      by_cases hk : k < (s.operandCode table y).length
      · rw [List.getElem?_append_left hk] at h
        use [], y, xs, k, rfl, (Nat.zero_add k).symm, h
      · rw [Nat.not_lt] at hk
        rw [List.getElem?_append_right hk] at h
        obtain ⟨before, z, rest, k', rfl, hk', hx⟩ := ih h
        refine ⟨y :: before, z, rest, k', rfl, ?_, hx⟩
        rw [fetchCode, List.length_append]
        omega

/-- In its turn an operand is loaded if it is not settled, and then pushed if it is to be. -/
theorem operandCode_cases (h : (s.operandCode table y)[k]? = some x) :
  (∃ v, s.loadValue? table y.1 = some v
      ∧ x = { op := .load, reg := (s.register table y.1).2, value := v })
    ∨ y.2 ∧ k = (s.loadCode table y.1).length
      ∧ x = { op := .push, value := (s.register table y.1).2 }
  := by
  rw [operandCode] at h
  by_cases hk : k < (s.loadCode table y.1).length
  · left
    rw [List.getElem?_append_left hk] at h
    rw [loadCode] at h
    cases hv : s.loadValue? table y.1 with
    | none =>
        rw [hv] at h
        cases h
    | some v =>
        rw [hv] at h
        use v, rfl
        apply List.mem_singleton.mp (List.mem_of_getElem? h)
  · right
    rw [Nat.not_lt] at hk
    rw [List.getElem?_append_right hk] at h
    split at h
    · next hpushed =>
      obtain ⟨hlt, hx⟩ := List.getElem?_eq_some_iff.mp h
      rw [List.length_singleton] at hlt
      use hpushed, by omega
      apply List.mem_singleton.mp (List.mem_of_getElem? h)
    · cases h

end Lowering

/-! ### The operands of a program -/

/-- The instruction mentions the operand: it fetches one of that kind and text. -/
def Instr.Mentions (i : Instr) (o : Operand) : Prop := ∃ y ∈ i.fetched, y.1.key = o.key

/-- The instruction assigns another operand to the operand. -/
def Instr.Assigns (i : Instr) (o : Operand) : Prop :=
  i.kind = .assign ∧ i.target.key = o.key ∧ i.source.key ≠ o.key

/-- The instruction uses the operand, not only to assign it to itself. -/
def Instr.Reads (i : Instr) (o : Operand) : Prop :=
  (∃ y ∈ i.uses, y.key = o.key) ∧ (i.kind = .assign → i.target.key ≠ o.key)

theorem Instr.exists_fetched_of_mem_uses {i : Instr} {y : Operand} (h : y ∈ i.uses) :
  ∃ pushed, (y, pushed) ∈ i.fetched
  := by
  have hkind : i.kind ≠ .functionStart := by
    intro hkind
    rw [uses, hkind] at h
    cases h
  have hy : y ∈ i.fetched.map (·.1) := by
    rw [map_fst_fetched hkind]
    apply List.mem_append_right _ h
  obtain ⟨⟨_, pushed⟩, hmem, rfl⟩ := List.mem_map.mp hy
  use pushed

theorem Instr.mem_uses_of_pushed {i : Instr} {y : Operand} (h : (y, true) ∈ i.fetched) :
  y ∈ i.uses ∧ i.kind ≠ .assign
  := by
  rw [fetched] at h
  rw [uses]
  cases hk : i.kind with
  | call => simpa [hk] using h
  | ret =>
      rw [hk] at h
      dsimp only at h ⊢
      split at h
      · next hvalue => simpa [hvalue] using h
      · cases h
  | _ => simp [hk] at h

theorem Instr.target_mem_fetched {i : Instr} (h : i.isComputation ∨ i.kind = .assign) :
  (i.target, false) ∈ i.fetched
  := by
  rw [isComputation] at h
  rw [fetched]
  cases hk : i.kind with
  | assign | binary | unary | call => apply List.mem_cons_self
  | _ => simp [hk] at h

namespace Program

variable {table : Option SymbolTable} {p : Program} {i : Instr} {o y : Operand} {r : Text}
variable {j k : Nat} {x : MachineInstr}

/-- The instruction at place `j` is the first one that mentions the operand. -/
def FirstMention (p : Program) (o : Operand) (j : Nat) : Prop :=
  (∃ i, p[j]? = some i ∧ i.Mentions o) ∧ ∀ j' < j, ∀ i, p[j']? = some i → ¬ i.Mentions o

/-- An operand that is loaded is settled from its first mention on. -/
theorem loadValue?_after_eq_none_iff (ho : o.IsLoaded table) :
  (Lowering.after table p j).loadValue? table o = none
    ↔ ∃ j' < j, ∃ i, p[j']? = some i ∧ i.Mentions o
  := by
  induction j with
  | zero =>
      constructor
      · intro h
        cases Lowering.exists_entry h ho
      · rintro ⟨j', hlt, -⟩
        cases hlt
  | succ j ih =>
      rw [Nat.exists_lt_succ_right, ← ih]
      cases hj : p[j]? with
      | none =>
          rw [Lowering.after_of_le (List.getElem?_eq_none_iff.mp hj)]
          simp
      | some i =>
          rw [Lowering.after_succ hj]
          apply Lowering.loadValue?_fetchAll_eq_none_iff.trans
          simp only [Option.some.injEq, exists_eq_left', Instr.Mentions]

/-- The first mention of an operand that is loaded is where it is not settled. -/
theorem firstMention_iff (ho : o.IsLoaded table) (hi : p[j]? = some i) :
  p.FirstMention o j ↔ i.Mentions o ∧ (Lowering.after table p j).loadValue? table o ≠ none
  := by
  rw [Ne, loadValue?_after_eq_none_iff ho, FirstMention]
  simp [hi]

/-- An operand that is fetched has a register. -/
theorem resolves_turn (table : Option SymbolTable) {before rest : List (Operand × Bool)}
    {y : Operand × Bool} (hi : p[j]? = some i) (hfetched : i.fetched = before ++ y :: rest) :
  p.Resolves table y.1 (((Lowering.after table p j).fetchAll table before).register table y.1).2
  := ⟨j, i, before, y.2, rest, hi, hfetched, rfl⟩

/-- The operation of an instruction finds the operands that were fetched in their registers. -/
theorem resolves_nameAt (table : Option SymbolTable) {pushed : Bool} (hi : p[j]? = some i)
    (hy : (y, pushed) ∈ i.fetched) :
  p.Resolves table y (p.nameAt table j i y)
  := by
  obtain ⟨before, rest, hfetched⟩ := List.append_of_mem hy
  have hname := Lowering.nameOf_fetchAll table (Lowering.after table p j) before (y, pushed) rest
  rw [← hfetched] at hname
  rw [nameAt, hname]
  apply resolves_turn table hi hfetched

/-- Operands of one kind and text have the same register. -/
theorem Resolves.eq_of_key {o' : Operand} {r' : Text} (h : p.Resolves table o r)
    (h' : p.Resolves table o' r') (hkey : o'.key = o.key) :
  r' = r
  := by
  obtain ⟨-, rfl⟩ := h.settled
  obtain ⟨-, rfl⟩ := h'.settled
  rw [Lowering.nameOf, Lowering.nameOf, hkey, (Prod.mk.inj hkey).2]

/-- A computation writes a temporary under its own name. -/
theorem nameAt_target (hp : ∀ i ∈ p, i.Made) (hi : p[j]? = some i) (h : i.isComputation) :
  ∃ n, p.nameAt table j i i.target = (Operand.ofTemp n).text
  := by
  obtain ⟨n, hn⟩ := (hp i (List.mem_of_getElem? hi)).target h
  use n
  rw [← hn]
  apply (resolves_nameAt table hi (Instr.target_mem_fetched (.inl h))).eq_text
  apply Operand.not_isLoaded_of_temp
  rw [hn]
  rfl

/-- The operand `o` is loaded into the register `r`, and no literal and no variable that the table
does not know bears the name of that register. -/
structure Owns (table : Option SymbolTable) (p : Program) (o : Operand) (r : Text) : Prop where
  loaded : o.IsLoaded table
  resolves : p.Resolves table o r
  alone : ∀ o' r', p.Resolves table o' r' → o'.text = r → o'.kind = .var ∧ Knows table o'.text

namespace Owns

variable (h : p.Owns table o r)
include h

/-- Only operands of the same kind and text have the register. -/
theorem eq_iff_key_eq {r' : Text} (hy : p.Resolves table y r') :
  r' = r ↔ y.key = o.key
  := by
  constructor
  · rintro rfl
    have hloaded : y.IsLoaded table := by
      by_contra hnot
      apply hnot
      right
      apply h.alone y r' hy (hy.eq_text hnot).symm
    apply hy.key_eq h.resolves hloaded h.loaded
  · apply h.resolves.eq_of_key hy

theorem turn_eq_iff {before rest : List (Operand × Bool)} {y : Operand × Bool}
    (hi : p[j]? = some i) (hfetched : i.fetched = before ++ y :: rest) :
  (((Lowering.after table p j).fetchAll table before).register table y.1).2 = r ↔ y.1.key = o.key
  := h.eq_iff_key_eq (resolves_turn table hi hfetched)

theorem nameAt_eq_iff {pushed : Bool} (hi : p[j]? = some i) (hy : (y, pushed) ∈ i.fetched) :
  p.nameAt table j i y = r ↔ y.key = o.key
  := h.eq_iff_key_eq (resolves_nameAt table hi hy)

/-- The register is not named like a number. -/
theorem ne_ofNat (k : Nat) :
  r ≠ Text.ofNat k
  := by
  obtain ⟨n, rfl⟩ := h.resolves.eq_registerName h.loaded
  apply registerName_ne_ofNat n k

/-- No value with which an operand is loaded is the name of the register. -/
theorem value_ne {s : Lowering} {r' v : Text} (hy : p.Resolves table y r')
    (hv : s.loadValue? table y = some v) :
  v ≠ r
  := by
  rw [Lowering.loadValue?] at hv
  split at hv
  · cases hv
  · split at hv
    · next hkind =>
      rintro rfl
      obtain ⟨hvar, -⟩ := h.alone y r' hy (Option.some.inj hv)
      rw [hkind] at hvar
      cases hvar
    · obtain ⟨address, -, rfl⟩ := Option.map_eq_some_iff.mp hv
      apply (h.ne_ofNat address).symm
    · cases hv

/-- A computation writes another register. -/
theorem not_writes_of_isComputation (hp : ∀ i ∈ p, i.Made) (hi : p[j]? = some i)
    (hcomputation : i.isComputation) (hx : x ∈ p.operationPart table j i) :
  r ∉ x.writes
  := by
  intro hr
  obtain ⟨k, hk⟩ := h.resolves.eq_registerName h.loaded
  obtain ⟨n, hn⟩ := nameAt_target hp hi hcomputation
  apply registerName_ne_ofTemp k n
  rw [← hk, ← hn, (Instr.writes_operation hx hr).1]

/-- The register is written where the operand is mentioned first and where it is assigned. -/
theorem firstMention_or_assigns (hp : ∀ i ∈ p, i.Made) (hi : p[j]? = some i)
    (hx : x ∈ p.piece table j i) (hr : r ∈ x.writes) :
  p.FirstMention o j ∨ i.Assigns o
  := by
  rw [piece, List.mem_append] at hx
  obtain hx | hx := hx
  · left
    obtain ⟨k, hk⟩ := List.mem_iff_getElem?.mp hx
    obtain ⟨before, y, rest, k', hfetched, -, hturn⟩ := Lowering.exists_turn hk
    obtain ⟨v, hv, rfl⟩ | ⟨-, -, rfl⟩ := Lowering.operandCode_cases hturn
    · have hkey := (h.turn_eq_iff hi hfetched).mp (List.mem_singleton.mp hr).symm
      rw [firstMention_iff h.loaded hi]
      use ⟨y, by simp [hfetched], hkey⟩
      intro hnone
      rw [← Lowering.loadValue?_congr hkey] at hnone
      rw [(Lowering.keeps_fetchAll _ before _ hnone).1] at hv
      cases hv
    · cases hr
  · right
    obtain ⟨hname, hcomputation | ⟨hassign, hne⟩⟩ := Instr.writes_operation hx hr
    · apply absurd hr (h.not_writes_of_isComputation hp hi hcomputation hx)
    · have hfetched := Instr.target_mem_fetched (.inr hassign)
      use hassign, (h.nameAt_eq_iff hi hfetched).mp hname.symm
      intro hsource
      have huses : i.source ∈ i.uses := by
        rw [Instr.uses, hassign]
        apply List.mem_cons_self
      obtain ⟨pushed, hfetched'⟩ := Instr.exists_fetched_of_mem_uses huses
      apply hne
      rw [← hname, (h.nameAt_eq_iff hi hfetched').mpr hsource]

/-- If the operand is not settled, then fetching operands among which it is writes its register. -/
theorem exists_write_of_not_settled {xs rest : List (Operand × Bool)} (hi : p[j]? = some i)
    (hfetched : i.fetched = xs ++ rest)
    (hnone : (Lowering.after table p j).loadValue? table o ≠ none)
    (hmem : ∃ y ∈ xs, y.1.key = o.key) :
  ∃ x ∈ (Lowering.after table p j).fetchCode table xs, r ∈ x.writes
  := by
  obtain ⟨before, y, rest', v, rfl, hkey, hv⟩ := Lowering.exists_load hnone hmem
  rw [List.append_assoc, List.cons_append] at hfetched
  have hr := (h.turn_eq_iff hi hfetched).mpr hkey
  rw [Lowering.fetchCode_append, Lowering.fetchCode, Lowering.operandCode, Lowering.loadCode, hv]
  refine ⟨{ op := .load, reg := r, value := v }, ?_, List.mem_singleton_self r⟩
  rw [← hr]
  simp

theorem exists_write_of_firstMention (hi : p[j]? = some i) (hj : p.FirstMention o j) :
  ∃ x ∈ p.fetchPart table j i, r ∈ x.writes
  := by
  obtain ⟨hmem, hnone⟩ := (firstMention_iff h.loaded hi).mp hj
  apply h.exists_write_of_not_settled hi (List.append_nil _).symm hnone hmem

/-- An assignment of another operand writes the register. -/
theorem exists_write_of_assigns (hi : p[j]? = some i) (hassigns : i.Assigns o) :
  ∃ x ∈ p.operationPart table j i, r ∈ x.writes
  := by
  obtain ⟨hkind, htarget, hsource⟩ := hassigns
  have huses : i.source ∈ i.uses := by
    rw [Instr.uses, hkind]
    apply List.mem_cons_self
  obtain ⟨pushed, hfetched⟩ := Instr.exists_fetched_of_mem_uses huses
  have hr := (h.nameAt_eq_iff hi (Instr.target_mem_fetched (.inr hkind))).mpr htarget
  have hr' := (h.nameAt_eq_iff hi hfetched).not.mpr hsource
  rw [operationPart, Instr.operation, hkind]
  dsimp only
  rw [hr, if_neg (Ne.symm hr')]
  exact ⟨_, List.mem_cons_self, List.mem_singleton_self r⟩

theorem not_firstMention_of_not_writes (hi : p[j]? = some i)
    (hwrites : ∀ x ∈ p.piece table j i, r ∉ x.writes) :
  ¬ p.FirstMention o j ∧ ¬ i.Assigns o
  := by
  constructor
  · intro hj
    obtain ⟨x, hx, hr⟩ := h.exists_write_of_firstMention hi hj
    apply hwrites x (List.mem_append_left _ hx) hr
  · intro hassigns
    obtain ⟨x, hx, hr⟩ := h.exists_write_of_assigns hi hassigns
    apply hwrites x (List.mem_append_right _ hx) hr

/-- When the operand is pushed at its first mention, its register has been written before. -/
theorem exists_write_before_push {before rest : List (Operand × Bool)} {y : Operand × Bool}
    (hi : p[j]? = some i) (hj : p.FirstMention o j) (hfetched : i.fetched = before ++ y :: rest)
    (hkey : y.1.key = o.key) :
  ∃ x ∈ (Lowering.after table p j).fetchCode table before
      ++ ((Lowering.after table p j).fetchAll table before).loadCode table y.1, r ∈ x.writes
  := by
  obtain ⟨-, hnone⟩ := (firstMention_iff h.loaded hi).mp hj
  cases hv : ((Lowering.after table p j).fetchAll table before).loadValue? table y.1 with
  | none =>
      rw [Lowering.loadValue?_congr hkey, Lowering.loadValue?_fetchAll_eq_none_iff] at hv
      obtain ⟨x, hx, hr⟩ := h.exists_write_of_not_settled hi hfetched hnone (hv.resolve_left hnone)
      use x, List.mem_append_left _ hx
  | some v =>
      have hr := (h.turn_eq_iff hi hfetched).mpr hkey
      rw [Lowering.loadCode, hv, hr]
      use { op := .load, reg := r, value := v }
      use List.mem_append_right _ List.mem_cons_self
      apply List.mem_singleton_self r

/-- An operation reads the register for a use of the operand. -/
theorem reads_of_mem_operationPart (hi : p[j]? = some i) (hx : x ∈ p.operationPart table j i)
    (hr : r ∈ x.reads) :
  i.Reads o
  := by
  obtain rfl | rfl | ⟨⟨y, hy, hname⟩, hassign⟩ := Instr.reads_operation hx hr
  · apply absurd (by decide +kernel) (h.ne_ofNat 0)
  · apply absurd (by decide +kernel) (h.ne_ofNat 1)
  · obtain ⟨pushed, hfetched⟩ := Instr.exists_fetched_of_mem_uses hy
    have hkey := (h.nameAt_eq_iff hi hfetched).mp hname.symm
    use ⟨y, hy, hkey⟩
    intro hkind htarget
    apply hassign hkind
    rw [Instr.uses, hkind, List.mem_singleton] at hy
    rw [← hy, ← hname]
    apply (h.nameAt_eq_iff hi (Instr.target_mem_fetched (.inr hkind))).mpr htarget

/-- What reads the register before it is written in the code of the instruction reads it for a use
of the operand by an instruction that is not the first to mention it. -/
theorem reads_of_mem_reads (hi : p[j]? = some i) (hx : (p.piece table j i)[k]? = some x)
    (hr : r ∈ x.reads) (hbefore : ∀ x' ∈ (p.piece table j i).take k, r ∉ x'.writes) :
  i.Reads o ∧ ¬ p.FirstMention o j
  := by
  rw [piece] at hx hbefore
  by_cases hk : k < (p.fetchPart table j i).length
  · rw [List.getElem?_append_left hk] at hx
    rw [List.take_append_of_le_length (Nat.le_of_lt hk)] at hbefore
    obtain ⟨before, y, rest, k', hfetched, rfl, hturn⟩ := Lowering.exists_turn hx
    have hy := resolves_turn table hi hfetched
    obtain ⟨v, hv, rfl⟩ | ⟨hpushed, rfl, rfl⟩ := Lowering.operandCode_cases hturn
    · apply absurd (List.mem_singleton.mp hr).symm (h.value_ne hy hv)
    · have hkey := (h.eq_iff_key_eq hy).mp (List.mem_singleton.mp hr).symm
      obtain ⟨y, pushed⟩ := y
      obtain rfl : pushed = true := hpushed
      obtain ⟨huses, hkind⟩ : y ∈ i.uses ∧ i.kind ≠ .assign :=
        Instr.mem_uses_of_pushed (by simp [hfetched])
      use ⟨⟨y, huses, hkey⟩, fun hassign => absurd hassign hkind⟩
      intro hfirst
      obtain ⟨x', hx', hr'⟩ := h.exists_write_before_push hi hfirst hfetched hkey
      apply hbefore x' _ hr'
      rw [fetchPart, hfetched, Lowering.fetchCode_append, Lowering.fetchCode, Lowering.operandCode,
        List.append_assoc, ← List.append_assoc, ← List.length_append, List.take_left]
      apply hx'
  · rw [Nat.not_lt] at hk
    rw [List.getElem?_append_right hk] at hx
    use h.reads_of_mem_operationPart hi (List.mem_of_getElem? hx) hr
    intro hfirst
    obtain ⟨x', hx', hr'⟩ := h.exists_write_of_firstMention hi hfirst
    apply hbefore x' _ hr'
    rw [List.take_append, List.take_of_length_le hk]
    apply List.mem_append_left _ hx'

/-- A use of the operand reads the register, and no jump comes before. -/
theorem exists_read (hp : ∀ i ∈ p, i.Made) (hi : p[j]? = some i) (hreads : i.Reads o) :
  ∃ k x, (p.piece table j i)[k]? = some x ∧ r ∈ x.reads
    ∧ ∀ x' ∈ (p.piece table j i).take k, x'.op ≠ .jmp
  := by
  have hfetch : ∀ x ∈ p.fetchPart table j i, x.op ≠ .jmp :=
    fun x => Lowering.op_ne_jmp_of_mem_fetchCode
  obtain ⟨⟨y, hy, hkey⟩, hassign⟩ := hreads
  by_cases hpushed : (y, true) ∈ i.fetched
  · obtain ⟨before, rest, hfetched⟩ := List.append_of_mem hpushed
    have hr := (h.turn_eq_iff hi hfetched).mpr hkey
    have hmem : { op := .push, value := r } ∈ p.fetchPart table j i := by
      rw [fetchPart, hfetched, Lowering.fetchCode_append, Lowering.fetchCode, Lowering.operandCode,
        hr]
      simp
    obtain ⟨k, hk⟩ := List.mem_iff_getElem?.mp hmem
    have hlt := (List.getElem?_eq_some_iff.mp hk).1
    use k, { op := .push, value := r }
    rw [piece, List.getElem?_append_left hlt, List.take_append_of_le_length (Nat.le_of_lt hlt)]
    use hk, List.mem_singleton_self r
    intro x' hx'
    apply hfetch x' (List.mem_of_mem_take hx')
  · obtain ⟨pushed, hfetched⟩ := Instr.exists_fetched_of_mem_uses hy
    have hr := (h.nameAt_eq_iff hi hfetched).mpr hkey
    have hdifferent : i.kind = .assign →
        p.nameAt table j i i.target ≠ p.nameAt table j i i.source := by
      intro hkind
      rw [Instr.uses, hkind, List.mem_singleton] at hy
      rw [← hy, hr]
      have htarget := Instr.target_mem_fetched (.inr hkind)
      apply (h.nameAt_eq_iff hi htarget).not.mpr (hassign hkind)
    obtain ⟨k, x, hx, hmem, hjump⟩ := Instr.exists_read_operation hy
      (hp i (List.mem_of_getElem? hi)).operator hdifferent hpushed
    rw [hr] at hmem
    use (p.fetchPart table j i).length + k, x
    rw [piece, List.getElem?_append_right (Nat.le_add_right _ _), Nat.add_sub_cancel_left,
      List.take_length_add_append]
    use hx, hmem
    rw [List.forall_mem_append]
    use hfetch
    apply hjump

end Owns

end Program

end ThreeAddress
