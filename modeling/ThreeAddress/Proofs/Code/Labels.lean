import Mathlib.Tactic.Common
import ThreeAddress.Code.Instr

/-!
# Labels and their places

`Program.LabelAt p label n` says that the instruction at place `n` of `p` is the label `label`.
`Program.labelIndex?` finds the last such place, and finds one whenever there is one.  If no two
labels of `p` have the same name, then it finds the only one.
-/

namespace ThreeAddress

namespace Program

/-- The instruction at place `n` of `p` is the label `label`. -/
def LabelAt (p : Program) (label : Text) (n : Nat) : Prop :=
  ∃ i, p[n]? = some i ∧ i.kind = .label ∧ i.label = label

theorem labelAt_cons_zero {i : Instr} {p : Program} {label : Text} :
  LabelAt (i :: p) label 0 ↔ i.kind = .label ∧ i.label = label
  := by
  simp [LabelAt]

theorem labelAt_cons_succ {i : Instr} {p : Program} {label : Text} {n : Nat} :
  LabelAt (i :: p) label (n + 1) ↔ LabelAt p label n
  := by
  simp [LabelAt]

/-- The labels listed from `start` on are those of the program, with their places. -/
theorem mem_labelsFrom {p : Program} {start : Nat} {label : Text} {n : Nat} :
  (label, n) ∈ labelsFrom start p ↔ ∃ k, n = start + k ∧ p.LabelAt label k
  := by
  induction p generalizing start with
  | nil => simp [labelsFrom, LabelAt]
  | cons i p ih =>
      have hstep : (∃ k, n = start + k ∧ LabelAt (i :: p) label k)
          ↔ (n = start ∧ i.kind = .label ∧ i.label = label)
            ∨ ∃ k, n = start + 1 + k ∧ LabelAt p label k := by
        constructor
        · rintro ⟨k, hk, h⟩
          cases k with
          | zero =>
              left
              use hk
              apply labelAt_cons_zero.mp h
          | succ k =>
              right
              use k
              use by omega
              apply labelAt_cons_succ.mp h
        · rintro (⟨hn, h⟩ | ⟨k, hk, h⟩)
          · use 0
            use hn
            apply labelAt_cons_zero.mpr h
          · use k + 1
            use by omega
            apply labelAt_cons_succ.mpr h
      rw [hstep, ← ih, labelsFrom]
      split
      · next hkind =>
        rw [List.mem_cons, Prod.mk.injEq]
        constructor
        · rintro (⟨hl, hn⟩ | h)
          · left
            use hn, hkind
            apply hl.symm
          · right
            apply h
        · rintro (⟨hn, -, hl⟩ | h)
          · left
            use hl.symm
          · right
            apply h
      · next hkind => simp [hkind]

/-- Labels are listed in the order of their places. -/
theorem labelsFrom_pairwise (p : Program) (start : Nat) :
  (labelsFrom start p).Pairwise fun a b => a.2 < b.2
  := by
  induction p generalizing start with
  | nil => simp [labelsFrom]
  | cons i p ih =>
      rw [labelsFrom]
      split
      · apply List.Pairwise.cons _ (ih (start + 1))
        rintro ⟨label, n⟩ h
        obtain ⟨k, rfl, -⟩ := mem_labelsFrom.mp h
        dsimp only
        omega
      · apply ih

/-- The entry of a label found from the end stands at the last place that holds the label. -/
theorem last_of_find?_labelsFrom {p : Program} {label : Text} {e : Text × Nat}
    (h : (labelsFrom 0 p).reverse.find? (·.1 == label) = some e) :
  p.LabelAt label e.2 ∧ ∀ m, p.LabelAt label m → m ≤ e.2
  := by
  obtain ⟨hlabel, later, earlier, hsplit, hnone⟩ := List.find?_eq_some_iff_append.mp h
  obtain ⟨label', n⟩ := e
  obtain rfl : label' = label := by simpa using hlabel
  have hlist : labelsFrom 0 p = earlier.reverse ++ (label', n) :: later.reverse := by
    rw [← List.reverse_reverse (labelsFrom 0 p), hsplit]
    simp
  have hmem : ∀ k, (label', k) ∈ labelsFrom 0 p ↔ p.LabelAt label' k := by
    intro k
    simp [mem_labelsFrom]
  constructor
  · apply (hmem n).mp
    simp [hlist]
  · intro m hm
    have hm' := (hmem m).mpr hm
    have hsorted := labelsFrom_pairwise p 0
    rw [hlist, List.mem_append, List.mem_cons] at hm'
    rw [hlist, List.pairwise_append] at hsorted
    obtain hbefore | heq | hafter := hm'
    · apply Nat.le_of_lt
      apply hsorted.2.2 _ hbefore _ List.mem_cons_self
    · simp only [Prod.mk.injEq, true_and] at heq
      apply Nat.le_of_eq heq
    · have hno := hnone _ (List.mem_reverse.mp hafter)
      simp at hno

/-- A label has no place exactly if no instruction is that label. -/
theorem labelIndex?_eq_none_iff {p : Program} {label : Text} :
  p.labelIndex? label = none ↔ ∀ n, ¬ p.LabelAt label n
  := by
  rw [labelIndex?, Option.map_eq_none_iff, List.find?_eq_none]
  constructor
  · intro h n hn
    apply h (label, n)
    · rw [List.mem_reverse, mem_labelsFrom]
      use n
      simp [hn]
    · simp
  · rintro h ⟨label', n⟩ hmem hl
    rw [List.mem_reverse, mem_labelsFrom] at hmem
    obtain ⟨k, -, hk⟩ := hmem
    apply h k
    rw [← (beq_iff_eq.mp hl : label' = label)]
    apply hk

/-- The place of a label is the last one that holds it. -/
theorem labelIndex?_eq_some_iff {p : Program} {label : Text} {n : Nat} :
  p.labelIndex? label = some n
    ↔ p.LabelAt label n ∧ ∀ m, p.LabelAt label m → m ≤ n
  := by
  constructor
  · intro h
    obtain ⟨e, hfind, rfl⟩ := Option.map_eq_some_iff.mp h
    apply last_of_find?_labelsFrom hfind
  · rintro ⟨hn, hlast⟩
    cases hm : p.labelIndex? label with
    | none => apply absurd hn (labelIndex?_eq_none_iff.mp hm n)
    | some m =>
        obtain ⟨e, hfind, rfl⟩ := Option.map_eq_some_iff.mp hm
        obtain ⟨he, hlate⟩ := last_of_find?_labelsFrom hfind
        rw [Nat.le_antisymm (hlast e.2 he) (hlate n hn)]

/-! ### Programs whose labels are distinct -/

/-- The names of the labels of a program, in order. -/
def labelNames (p : Program) : List Text := (p.filter (·.kind = .label)).map (·.label)

@[simp]
theorem labelNames_append (p q : Program) :
  labelNames (p ++ q) = labelNames p ++ labelNames q
  := by
  simp [labelNames]

@[simp]
theorem labelNames_nil :
  labelNames [] = []
  := rfl

@[simp]
theorem labelNames_cons (i : Instr) (p : Program) :
  labelNames (i :: p) = if i.kind = .label then i.label :: labelNames p else labelNames p
  := by
  by_cases h : i.kind = .label
  · simp [labelNames, h]
  · simp [labelNames, h]

theorem LabelAt.mem_labelNames {p : Program} {label : Text} {n : Nat} (h : p.LabelAt label n) :
  label ∈ p.labelNames
  := by
  obtain ⟨i, hi, hkind, hlabel⟩ := h
  rw [labelNames, List.mem_map]
  use i
  rw [List.mem_filter]
  simp [List.mem_of_getElem? hi, hkind, hlabel]

/-- Every label stands somewhere. -/
theorem exists_labelAt {p : Program} {label : Text} (h : label ∈ p.labelNames) :
  ∃ n, p.LabelAt label n
  := by
  obtain ⟨i, hi, rfl⟩ := List.mem_map.mp h
  obtain ⟨hmem, hkind⟩ := List.mem_filter.mp hi
  obtain ⟨n, hn⟩ := List.mem_iff_getElem?.mp hmem
  exact ⟨n, i, hn, of_decide_eq_true hkind, rfl⟩

/-- If the labels of `p` are distinct, then a label stands at one place only. -/
theorem LabelAt.unique {p : Program} (hp : p.labelNames.Nodup) {label : Text} {n m : Nat}
    (hn : p.LabelAt label n) (hm : p.LabelAt label m) :
  n = m
  := by
  induction p generalizing n m with
  | nil => simp [LabelAt] at hn
  | cons i p ih =>
      by_cases hkind : i.kind = .label
      · rw [labelNames_cons, if_pos hkind, List.nodup_cons] at hp
        cases n with
        | zero =>
            cases m with
            | zero => rfl
            | succ m =>
                rw [← (labelAt_cons_zero.mp hn).2] at hm
                apply absurd (labelAt_cons_succ.mp hm).mem_labelNames hp.1
        | succ n =>
            cases m with
            | zero =>
                rw [← (labelAt_cons_zero.mp hm).2] at hn
                apply absurd (labelAt_cons_succ.mp hn).mem_labelNames hp.1
            | succ m => rw [ih hp.2 (labelAt_cons_succ.mp hn) (labelAt_cons_succ.mp hm)]
      · rw [labelNames_cons, if_neg hkind] at hp
        cases n with
        | zero => apply absurd (labelAt_cons_zero.mp hn).1 hkind
        | succ n =>
            cases m with
            | zero => apply absurd (labelAt_cons_zero.mp hm).1 hkind
            | succ m => rw [ih hp (labelAt_cons_succ.mp hn) (labelAt_cons_succ.mp hm)]

/-- If the labels of `p` are distinct, then a label is found where it stands. -/
theorem labelIndex?_of_labelAt {p : Program} (hp : p.labelNames.Nodup) {label : Text} {n : Nat}
    (h : p.LabelAt label n) :
  p.labelIndex? label = some n
  := by
  rw [labelIndex?_eq_some_iff]
  use h
  intro m hm
  apply Nat.le_of_eq (hm.unique hp h)

end Program

end ThreeAddress
