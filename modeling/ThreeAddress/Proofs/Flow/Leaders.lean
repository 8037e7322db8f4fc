import Mathlib.Tactic.Common
import ThreeAddress.Flow.Graph

/-!
# Leaders and stretches

The leaders of a program are its first place, the places of labels and the places after jumps, in
order.  The stretches between them go without a gap from the first place to the last, and no leader
lies inside a stretch: hence only the first instruction of a stretch can be a label, and only the
last one a jump.
-/

namespace ThreeAddress

namespace Graph

/-! ### Leaders -/

/-- Whether a jump stands just before a place. -/
def jumpBefore (p : Program) : Nat → Bool
  | 0 => false
  | k + 1 => (p[k]?.map (·.kind.isJump)).getD false

/-- A place of the program is a leader: it is the first one, holds a label, or follows a jump. -/
def IsLeader (p : Program) (n : Nat) : Prop :=
  ∃ i, p[n]? = some i ∧ (n = 0 ∨ i.kind = .label ∨ jumpBefore p n)

theorem IsLeader.lt_length {p : Program} {n : Nat} (h : IsLeader p n) :
  n < p.length
  := by
  obtain ⟨i, hi, -⟩ := h
  apply (List.getElem?_eq_some_iff.mp hi).1

/-- Leaving out repetitions keeps an ordered list in order, with the same members. -/
theorem eraseReps_loop {a : Nat} {ns : List Nat} (h : (a :: ns).Pairwise (· ≤ ·)) :
  ∃ ms, (∀ acc, List.eraseRepsBy.loop (· == ·) a ns acc = acc.reverse ++ ms)
    ∧ ms.Pairwise (· < ·) ∧ ∀ n, n ∈ ms ↔ n ∈ a :: ns
  := by
  induction ns generalizing a with
  | nil => exact ⟨[a], fun acc => List.reverse_cons, by simp, fun n => Iff.rfl⟩
  | cons b ns ih =>
      obtain ⟨hhead, htail⟩ := List.pairwise_cons.mp h
      obtain ⟨ms, hloop, hsorted, hmem⟩ := ih htail
      by_cases hab : a = b
      · subst hab
        refine ⟨ms, ?_, hsorted, ?_⟩
        · intro acc
          rw [List.eraseRepsBy.loop, beq_self_eq_true]
          apply hloop
        · intro n
          simp [hmem]
      · refine ⟨a :: ms, ?_, ?_, ?_⟩
        · intro acc
          rw [List.eraseRepsBy.loop, beq_eq_false_iff_ne.mpr hab, hloop, List.reverse_cons,
            List.append_assoc]
          rfl
        · apply List.Pairwise.cons _ hsorted
          intro n hn
          have hle := hhead b List.mem_cons_self
          obtain rfl | hn := List.mem_cons.mp ((hmem n).mp hn)
          · omega
          · have hlater := (List.pairwise_cons.mp htail).1 n hn
            omega
        · intro n
          rw [List.mem_cons, hmem, List.mem_cons (b := a)]

theorem eraseReps_of_pairwise {ns : List Nat} (h : ns.Pairwise (· ≤ ·)) :
  ns.eraseReps.Pairwise (· < ·) ∧ ∀ n, n ∈ ns.eraseReps ↔ n ∈ ns
  := by
  cases ns with
  | nil => exact ⟨List.Pairwise.nil, fun n => Iff.rfl⟩
  | cons a ns =>
      obtain ⟨ms, hloop, hms⟩ := eraseReps_loop h
      rw [List.eraseReps, List.eraseRepsBy, hloop]
      exact hms

/-- What was found is put in order, each place once. -/
theorem findLeaders_of_found (p : Program) :
  (findLeaders p).Pairwise (· < ·) ∧ ∀ n, n ∈ findLeaders p ↔ n ∈ foundLeaders p
  := by
  have hsorted : ((foundLeaders p).mergeSort).Pairwise (· ≤ ·) := by
    let le (m n : Nat) : Bool := decide (m ≤ n)
    have htrans : ∀ a b c, le a b → le b c → le a c := by
      intro a b c
      simp only [le, decide_eq_true_eq]
      exact Nat.le_trans
    have htotal : ∀ a b, le a b || le b a := by
      intro a b
      simp only [le, Bool.or_eq_true, decide_eq_true_eq]
      exact Nat.le_total a b
    exact (List.pairwise_mergeSort htrans htotal (foundLeaders p)).imp of_decide_eq_true
  obtain ⟨hfind, hmem⟩ := eraseReps_of_pairwise hsorted
  exact ⟨hfind, fun n => (hmem n).trans List.mem_mergeSort⟩

/-- The leaders of a program: an empty one has none. -/
def leaders (p : Program) : List Nat := if p.isEmpty then [] else findLeaders p

theorem mem_foundLeaders {p : Program} (hp : p ≠ []) {n : Nat} :
  n ∈ foundLeaders p ↔ IsLeader p n
  := by
  have hpos := List.length_pos_iff.mpr hp
  rw [foundLeaders, List.mem_cons, List.mem_flatMap]
  constructor
  · rintro (rfl | ⟨⟨i, m⟩, hi, hn⟩)
    · exact ⟨p[0], List.getElem?_eq_getElem hpos, .inl rfl⟩
    · have hget : p[m]? = some i := List.mem_zipIdx_iff_getElem?.mp hi
      obtain hn | hn := List.mem_append.mp hn
      · split at hn
        · next h =>
          obtain rfl := List.mem_singleton.mp hn
          obtain ⟨hlabel, -⟩ := Bool.and_eq_true_iff.mp h
          exact ⟨i, hget, .inr (.inl (beq_iff_eq.mp hlabel))⟩
        · cases hn
      · split at hn
        · next h =>
          obtain rfl := List.mem_singleton.mp hn
          obtain ⟨hjump, hlt⟩ := Bool.and_eq_true_iff.mp h
          have hlt := of_decide_eq_true hlt
          refine ⟨p[m + 1], List.getElem?_eq_getElem hlt, .inr (.inr ?_)⟩
          simp [jumpBefore, hget, hjump]
        · cases hn
  · rintro ⟨i, hi, h⟩
    cases n with
    | zero => exact .inl rfl
    | succ k =>
        right
        obtain h | h | h := h
        · omega
        · refine ⟨(i, k + 1), List.mem_zipIdx_iff_getElem?.mpr hi, List.mem_append_left _ ?_⟩
          rw [if_pos (by simp [h])]
          exact List.mem_singleton_self _
        · have hlt := (List.getElem?_eq_some_iff.mp hi).1
          have hk : k < p.length := by omega
          rw [jumpBefore, List.getElem?_eq_getElem hk] at h
          have hget := List.getElem?_eq_getElem hk
          refine ⟨(p[k], k), List.mem_zipIdx_iff_getElem?.mpr hget, List.mem_append_right _ ?_⟩
          have hjump : p[k].kind.isJump := h
          rw [if_pos (by simp [hjump, hlt])]
          exact List.mem_singleton_self _

theorem mem_leaders {p : Program} {n : Nat} :
  n ∈ leaders p ↔ IsLeader p n
  := by
  cases p with
  | nil => simp [leaders, IsLeader]
  | cons i q =>
      change n ∈ findLeaders (i :: q) ↔ _
      rw [(findLeaders_of_found _).2, mem_foundLeaders (List.cons_ne_nil i q)]

theorem leaders_pairwise (p : Program) :
  (leaders p).Pairwise (· < ·)
  := by
  cases p with
  | nil => simp [leaders]
  | cons i q => exact (findLeaders_of_found _).1

/-- The first leader of a program is its first place. -/
theorem exists_leaders_cons (i : Instr) (q : Program) :
  ∃ ls, leaders (i :: q) = 0 :: ls
  := by
  have hzero : 0 ∈ leaders (i :: q) := mem_leaders.mpr ⟨i, rfl, .inl rfl⟩
  have hsorted := leaders_pairwise (i :: q)
  cases hleaders : leaders (i :: q) with
  | nil =>
      rw [hleaders] at hzero
      cases hzero
  | cons a ls =>
      rw [hleaders] at hzero hsorted
      obtain rfl | hzero := List.mem_cons.mp hzero
      · exact ⟨ls, rfl⟩
      · cases (List.pairwise_cons.mp hsorted).1 0 hzero

/-- The place of a label is a leader. -/
theorem isLeader_of_label {p : Program} {n : Nat} {i : Instr} (hi : p[n]? = some i)
    (h : i.kind = .label) :
  IsLeader p n
  := by
  use i, hi
  right
  left
  apply h

/-- The place after a jump is a leader, unless the program ends there. -/
theorem isLeader_of_jump {p : Program} {n : Nat} {i : Instr} (hi : p[n]? = some i)
    (h : i.kind.isJump) (hn : n + 1 < p.length) :
  IsLeader p (n + 1)
  := by
  use p[n + 1]
  use List.getElem?_eq_getElem hn
  right
  right
  simp [jumpBefore, hi, h]

/-! ### Stretches -/

/-- The stretches `cuts` go without a gap from the place `start` to the end of a program of `size`
instructions. -/
inductive Tiles (size : Nat) : Nat → List (Nat × Nat) → Prop where
  | done : Tiles size size []
  | next {a b : Nat} {rest : List (Nat × Nat)} (le : a ≤ b) (tail : Tiles size (b + 1) rest) :
      Tiles size a ((a, b) :: rest)

namespace Tiles

variable {size start : Nat} {cuts : List (Nat × Nat)}

theorem start_le (h : Tiles size start cuts) :
  start ≤ size
  := by
  induction h with
  | done => apply Nat.le_refl
  | next le _ ih => omega

theorem cons_inv {a b : Nat} (h : Tiles size start ((a, b) :: cuts)) :
  a = start ∧ a ≤ b ∧ Tiles size (b + 1) cuts
  := by
  cases h with
  | next le tail => use rfl, le

/-- The first stretch, if there is one, begins where the stretches begin; there is none only at the
end of the program. -/
theorem head?_eq (h : Tiles size start cuts) :
  cuts.head?.map (·.1) = if start < size then some start else none
  := by
  cases h with
  | done => simp
  | next le tail =>
      have := tail.start_le
      rw [if_pos (by omega)]
      rfl

/-- The stretches from a member on go without a gap from its start, and those after it from the
place after its end. -/
theorem split {before after : List (Nat × Nat)} {a b : Nat}
    (h : Tiles size start (before ++ (a, b) :: after)) :
  start ≤ a ∧ a ≤ b ∧ Tiles size (b + 1) after
  := by
  induction before generalizing start with
  | nil =>
      obtain ⟨rfl, le, tail⟩ := h.cons_inv
      use Nat.le_refl a, le
  | cons c before ih =>
      obtain ⟨rfl, le, tail⟩ := h.cons_inv
      obtain ⟨h₁, h₂⟩ := ih tail
      use by omega

theorem stop_lt {before after : List (Nat × Nat)} {a b : Nat}
    (h : Tiles size start (before ++ (a, b) :: after)) :
  b < size
  := h.split.2.2.start_le

/-- No stretch begins inside another. -/
theorem start_not_inside (h : Tiles size start cuts) {a b n : Nat} (hab : (a, b) ∈ cuts)
    (hn : n ∈ cuts.map (·.1)) :
  n ≤ a ∨ b < n
  := by
  induction h with
  | done => simp at hab
  | @next c d rest le tail ih =>
      have hlate : ∀ m ∈ rest.map (·.1), d < m := by
        intro m hm
        obtain ⟨⟨m, e⟩, hmem, rfl⟩ := List.mem_map.mp hm
        obtain ⟨before, after, rfl⟩ := List.append_of_mem hmem
        apply tail.split.1
      rw [List.mem_cons] at hab
      rw [List.map_cons, List.mem_cons] at hn
      obtain heq | hab := hab
      · obtain ⟨rfl, rfl⟩ := Prod.mk.inj heq
        obtain rfl | hn := hn
        · left
          apply Nat.le_refl
        · right
          apply hlate n hn
      · obtain rfl | hn := hn
        · left
          have := hlate a (List.mem_map.mpr ⟨_, hab, rfl⟩)
          omega
        · apply ih hab hn

end Tiles

/-- Stretches begin at the given places. -/
theorem map_fst_stretches (size : Nat) (ls : List Nat) :
  (stretches size ls).map (·.1) = ls
  := by
  fun_induction stretches size ls with
  | case1 => rfl
  | case2 a => rfl
  | case3 a b rest ih => rw [List.map_cons, ih]

/-- Stretches that begin at ordered places go without a gap to the end of the program. -/
theorem tiles_stretches {size a : Nat} {ls : List Nat} (hsorted : (a :: ls).Pairwise (· < ·))
    (hlt : ∀ n ∈ a :: ls, n < size) :
  Tiles size a (stretches size (a :: ls))
  := by
  induction ls generalizing a with
  | nil =>
      have ha := hlt a List.mem_cons_self
      rw [stretches]
      apply Tiles.next (by omega)
      rw [Nat.sub_add_cancel (by omega)]
      apply Tiles.done
  | cons b ls ih =>
      have hab : a < b := (List.pairwise_cons.mp hsorted).1 b List.mem_cons_self
      rw [stretches]
      apply Tiles.next (by omega)
      rw [Nat.sub_add_cancel (by omega)]
      apply ih (List.pairwise_cons.mp hsorted).2
      intro n hn
      apply hlt n (List.mem_cons_of_mem a hn)

/-- The stretches of a program. -/
def cuts (p : Program) : List (Nat × Nat) := stretches p.length (leaders p)

theorem map_fst_cuts (p : Program) :
  (cuts p).map (·.1) = leaders p
  := map_fst_stretches p.length (leaders p)

/-- The stretches of a program go without a gap from its first place to its end. -/
theorem tiles_cuts (p : Program) :
  Tiles p.length 0 (cuts p)
  := by
  cases p with
  | nil => apply Tiles.done
  | cons i q =>
      obtain ⟨ls, hls⟩ := exists_leaders_cons i q
      have hsorted := leaders_pairwise (i :: q)
      rw [hls] at hsorted
      rw [cuts, hls]
      apply tiles_stretches hsorted
      intro n hn
      rw [← hls] at hn
      apply (mem_leaders.mp hn).lt_length

/-- No leader lies inside a stretch. -/
theorem leader_not_inside {p : Program} {a b n : Nat} (hab : (a, b) ∈ cuts p) (hn : IsLeader p n) :
  n ≤ a ∨ b < n
  := by
  apply (tiles_cuts p).start_not_inside hab
  rw [map_fst_cuts]
  apply mem_leaders.mpr hn

/-- A label in a stretch stands at its first place. -/
theorem label_in_cut {p : Program} {a b n : Nat} {i : Instr} (hab : (a, b) ∈ cuts p)
    (hi : p[n]? = some i) (ha : a ≤ n) (hb : n ≤ b) (h : i.kind = .label) :
  n = a
  := by
  obtain hle | hlt := leader_not_inside hab (isLeader_of_label hi h)
  · omega
  · omega

/-- A jump in a stretch stands at its last place. -/
theorem jump_in_cut {p : Program} {a b n : Nat} {i : Instr} (hab : (a, b) ∈ cuts p)
    (hi : p[n]? = some i) (ha : a ≤ n) (hb : n ≤ b) (h : i.kind.isJump) :
  n = b
  := by
  obtain ⟨before, after, hsplit⟩ := List.append_of_mem hab
  have hlt : b < p.length := by
    have htiles := tiles_cuts p
    rw [hsplit] at htiles
    apply htiles.stop_lt
  by_contra hne
  obtain hle | hlt := leader_not_inside hab (isLeader_of_jump hi h (by omega))
  · omega
  · omega

end Graph

end ThreeAddress
