import Mathlib.Data.List.Nodup
import ThreeAddress.Proofs.Dict
import ThreeAddress.Proofs.Flow.Liveness
import ThreeAddress.Register.Interference

/-!
# Ranges and the interference graph

The live range of a variable reaches from its first to its last occurrence, and every variable that
occurs has one range.  Two variables whose ranges overlap are neighbours in the interference graph,
in both directions.  The index of neighbours says the same as the list of edges.
-/

namespace ThreeAddress

/-! ### Ranges contain the occurrences -/

/-- The ranges `rs` have distinct names, start and stop at occurrences in the list `occs` and
contain them, and there is a range for every variable that occurs. -/
structure LiveRange.Cover (occs : List (Text × Nat)) (rs : List LiveRange) : Prop where
  distinct : (rs.map (·.name)).Nodup
  start : ∀ r ∈ rs, ∃ n : Nat, (r.name, n) ∈ occs ∧ r.start = n
  stop : ∀ r ∈ rs, ∃ n : Nat, (r.name, n) ∈ occs ∧ r.stop = n
  contain : ∀ r ∈ rs, ∀ n, (r.name, n) ∈ occs → r.start ≤ n ∧ (n : Int) ≤ r.stop
  found : ∀ o ∈ occs, o.1 ∈ rs.map (·.name)

namespace RangeList

variable {name : Text} {place : Nat} {s : RangeList}

/-- The names of the ranges, in their order. -/
def names (s : RangeList) : List Text := s.ranges.map (·.name)

/-- Under every variable the index has the position of its range, and it has no other entries. -/
def Indexed (s : RangeList) : Prop := ∀ v k, s.index.get? v = some k ↔ s.names[k]? = some v

theorem Indexed.nodup (h : s.Indexed) :
  s.names.Nodup
  := by
  apply List.nodup_iff_getElem?_ne_getElem?.mpr
  intro i j hij hj heq
  have hi := (h _ i).mpr (heq.trans (List.getElem?_eq_getElem hj))
  have hj := (h _ j).mpr (List.getElem?_eq_getElem hj)
  have := Option.some.inj (hi.symm.trans hj)
  omega

theorem Indexed.get?_eq_none_iff (h : s.Indexed) :
  s.index.get? name = none ↔ name ∉ s.names
  := by
  rw [List.mem_iff_getElem?, not_exists, Option.eq_none_iff_forall_ne_some]
  simp only [ne_eq, h name]

theorem names_modify (rs : List LiveRange) (k : Nat) (place : Nat) :
  (rs.modify k fun r => { r with stop := place }).map (·.name) = rs.map (·.name)
  := by
  apply List.ext_getElem?
  intro j
  rw [List.getElem?_map, List.getElem?_map, List.getElem?_modify]
  cases rs[j]? with
  | none => rfl
  | some r =>
      dsimp only [Option.map_eq_map, Option.map_some]
      split
      · rfl
      · rfl

theorem Indexed.names_note (h : s.Indexed) (name : Text) (place : Nat) :
  (s.note name place).names = if name ∈ s.names then s.names else s.names ++ [name]
  := by
  rw [note]
  split
  · next k hk =>
    rw [if_pos (List.mem_of_getElem? ((h name k).mp hk))]
    apply names_modify
  · next hnone =>
    rw [if_neg (h.get?_eq_none_iff.mp hnone), names, List.map_append]
    rfl

theorem indexed_empty :
  ({} : RangeList).Indexed
  := by
  intro v k
  simp [names]

/-- Noting an occurrence keeps the index in step with the ranges. -/
theorem Indexed.note (h : s.Indexed) (name : Text) (place : Nat) :
  (s.note name place).Indexed
  := by
  intro v k
  rw [h.names_note]
  rw [RangeList.note]
  split
  · next k' hk =>
    rw [if_pos (List.mem_of_getElem? ((h name k').mp hk))]
    apply h
  · next hnone =>
    have hnot := h.get?_eq_none_iff.mp hnone
    have hlength : s.names.length = s.ranges.length := List.length_map _
    rw [if_neg hnot, Dict.get?_insert]
    by_cases hv : name = v
    · subst hv
      rw [if_pos rfl, Option.some.injEq]
      constructor
      · rintro rfl
        rw [← hlength, List.getElem?_concat_length]
      · intro hk
        obtain hlt | hlt | hlt := Nat.lt_trichotomy k s.names.length
        · rw [List.getElem?_append_left hlt] at hk
          apply absurd (List.mem_of_getElem? hk) hnot
        · omega
        · rw [List.getElem?_eq_none (by simp; omega)] at hk
          contradiction
    · rw [if_neg hv, h, List.getElem?_append]
      split
      · rfl
      · next hle =>
        rw [List.getElem?_eq_none (by omega), List.getElem?_singleton]
        split
        · simp [hv]
        · rfl

/-- A range after an occurrence was noted is a range from before, perhaps longer, or the range of
this occurrence alone. -/
theorem Indexed.mem_note {r : LiveRange} (h : s.Indexed) (hr : r ∈ (s.note name place).ranges) :
  (r.name ≠ name ∧ r ∈ s.ranges)
    ∨ (∃ r' ∈ s.ranges, r'.name = name ∧ r = { r' with stop := place })
    ∨ (name ∉ s.names ∧ r = ⟨name, place, place⟩)
  := by
  rw [RangeList.note] at hr
  split at hr
  · next k hk =>
    have hname : s.names[k]? = some name := (h name k).mp hk
    obtain ⟨j, hj⟩ := List.mem_iff_getElem?.mp hr
    rw [List.getElem?_modify] at hj
    obtain ⟨r', hr', heq⟩ := Option.map_eq_some_iff.mp hj
    have hmem := List.mem_of_getElem? hr'
    have hname' : s.names[j]? = some r'.name := by
      rw [names, List.getElem?_map, hr', Option.map_some]
    split at heq
    · next hkj =>
      right
      left
      use r', hmem
      rw [← hkj, hname, Option.some.injEq] at hname'
      use hname'.symm, heq.symm
    · next hkj =>
      left
      rw [← heq]
      refine ⟨?_, hmem⟩
      intro hsame
      rw [hsame, ← h name j, hk, Option.some.injEq] at hname'
      apply hkj hname'
  · next hnone =>
    have hnot := h.get?_eq_none_iff.mp hnone
    obtain hr | hr := List.mem_append.mp hr
    · left
      constructor
      · intro heq
        apply hnot
        rw [← heq]
        apply List.mem_map_of_mem hr
      · apply hr
    · right
      right
      use hnot, List.mem_singleton.mp hr

theorem Indexed.foldl_note (h : s.Indexed) (occs : List (Text × Nat)) :
  (occs.foldl (fun s (name, place) => RangeList.note s name place) s).Indexed
  := by
  induction occs generalizing s with
  | nil => apply h
  | cons o occs ih => apply ih (h.note o.1 o.2)

end RangeList

namespace LiveRange

variable {name : Text} {place : Nat} {s : RangeList}

/-- Noting an occurrence at a place that is not before the others keeps the cover. -/
theorem Cover.note {occs : List (Text × Nat)} (hindex : s.Indexed) (h : Cover occs s.ranges)
    (hlast : ∀ o ∈ occs, o.2 ≤ place) :
  Cover (occs ++ [(name, place)]) (s.note name place).ranges
  := by
  constructor
  · apply (hindex.note name place).nodup
  · intro r hr
    obtain ⟨-, hmem⟩ | ⟨r', hmem, -, rfl⟩ | ⟨-, rfl⟩ := hindex.mem_note hr
    · obtain ⟨n, hn, heq⟩ := h.start r hmem
      use n, List.mem_append_left _ hn
    · obtain ⟨n, hn, heq⟩ := h.start r' hmem
      use n, List.mem_append_left _ hn
    · use place
      simp
  · intro r hr
    obtain ⟨-, hmem⟩ | ⟨r', hmem, hname, rfl⟩ | ⟨-, rfl⟩ := hindex.mem_note hr
    · obtain ⟨n, hn, heq⟩ := h.stop r hmem
      use n, List.mem_append_left _ hn
    · use place
      simp [hname]
    · use place
      simp
  · intro r hr n hn
    rw [List.mem_append, List.mem_singleton, Prod.mk.injEq] at hn
    obtain ⟨hne, hmem⟩ | ⟨r', hmem, -, rfl⟩ | ⟨hnot, rfl⟩ := hindex.mem_note hr
    · obtain hn | ⟨heq, -⟩ := hn
      · apply h.contain r hmem n hn
      · contradiction
    · dsimp only at hn ⊢
      obtain ⟨m, hm, hstart⟩ := h.start r' hmem
      have hmle := hlast _ hm
      dsimp only at hmle
      obtain hn | ⟨-, rfl⟩ := hn
      · have hin := h.contain r' hmem n hn
        have hnle := hlast _ hn
        dsimp only at hnle
        omega
      · omega
    · dsimp only at hn ⊢
      obtain hn | ⟨-, rfl⟩ := hn
      · apply absurd (h.found _ hn) hnot
      · omega
  · intro o ho
    change o.1 ∈ (s.note name place).names
    rw [hindex.names_note]
    obtain ho | ho := List.mem_append.mp ho
    · have hmem := h.found o ho
      split
      · apply hmem
      · apply List.mem_append_left _ hmem
    · rw [List.mem_singleton.mp ho]
      split
      · assumption
      · simp

/-- Noting occurrences in the order of their places keeps the cover. -/
theorem Cover.foldl_note {occs later : List (Text × Nat)} (hindex : s.Indexed)
    (h : Cover occs s.ranges) (hsorted : (occs ++ later).Pairwise fun a b => a.2 ≤ b.2) :
  Cover (occs ++ later)
    (later.foldl (fun s (name, place) => RangeList.note s name place) s).ranges
  := by
  induction later generalizing occs s with
  | nil =>
      rw [List.append_nil]
      apply h
  | cons o later ih =>
      have hlast : ∀ o' ∈ occs, o'.2 ≤ o.2 := by
        intro o' ho'
        apply (List.pairwise_append.mp hsorted).2.2 o' ho' o List.mem_cons_self
      rw [List.append_cons] at hsorted ⊢
      apply ih (hindex.note o.1 o.2) (h.note hindex hlast) hsorted

end LiveRange

namespace Program

theorem le_of_mem_occurrencesFrom {start : Nat} {p : Program} {o : Text × Nat}
    (h : o ∈ occurrencesFrom start p) :
  start ≤ o.2
  := by
  induction p generalizing start with
  | nil => cases h
  | cons i p ih =>
      obtain h | h := List.mem_append.mp h
      · obtain ⟨v, -, rfl⟩ := List.mem_map.mp h
        apply Nat.le_refl
      · have := ih h
        omega

theorem occurrencesFrom_pairwise (start : Nat) (p : Program) :
  (occurrencesFrom start p).Pairwise fun a b => a.2 ≤ b.2
  := by
  induction p generalizing start with
  | nil => apply List.Pairwise.nil
  | cons i p ih =>
      apply List.pairwise_append.mpr
      refine ⟨?_, ih (start + 1), ?_⟩
      · apply List.pairwise_map.mpr
        apply List.pairwise_of_forall
        intro _ _
        apply Nat.le_refl
      · intro a ha b hb
        obtain ⟨v, -, rfl⟩ := List.mem_map.mp ha
        have := le_of_mem_occurrencesFrom hb
        dsimp only
        omega

theorem mem_occurrencesFrom {start : Nat} {p : Program} {v : Text} {n : Nat} :
  (v, n) ∈ occurrencesFrom start p ↔ ∃ m, n = start + m ∧ p.Occurs v m
  := by
  induction p generalizing start with
  | nil => simp [occurrencesFrom, Occurs]
  | cons i p ih =>
      rw [occurrencesFrom, List.mem_append, List.mem_map, ih]
      constructor
      · rintro (⟨w, hw, heq⟩ | ⟨m, rfl, hm⟩)
        · cases heq
          exact ⟨0, rfl, i, rfl, hw⟩
        · refine ⟨m + 1, by omega, ?_⟩
          apply hm
      · rintro ⟨m, rfl, j, hj, hv⟩
        cases m with
        | zero =>
            cases hj
            exact .inl ⟨v, hv, rfl⟩
        | succ m => exact .inr ⟨m, by omega, j, hj, hv⟩

theorem mem_occurrences {p : Program} {v : Text} {n : Nat} :
  (v, n) ∈ occurrencesFrom 0 p ↔ p.Occurs v n
  := by
  rw [mem_occurrencesFrom]
  simp

/-- The live ranges of a program cover the occurrences of its variables. -/
theorem cover_liveRanges (p : Program) :
  LiveRange.Cover (occurrencesFrom 0 p) p.liveRanges
  := by
  have hnil : LiveRange.Cover [] [] := ⟨List.nodup_nil, by simp, by simp, by simp, by simp⟩
  apply hnil.foldl_note RangeList.indexed_empty
  apply occurrencesFrom_pairwise

/-- All occurrences of one of the variables come before all occurrences of the other. -/
def Separated (p : Program) (u v : Text) : Prop :=
  (∀ m n, p.Occurs u m → p.Occurs v n → m < n) ∨ (∀ m n, p.Occurs u m → p.Occurs v n → n < m)

/-- The range of a variable that occurs. -/
theorem exists_range {p : Program} {v : Text} {n : Nat} (h : p.Occurs v n) :
  ∃ r ∈ p.liveRanges, r.name = v
  := by
  obtain ⟨r, hr, hname⟩ := List.mem_map.mp ((cover_liveRanges p).found _ (mem_occurrences.mpr h))
  use r, hr, hname

/-- The ranges of two variables overlap exactly if their occurrences are not separated. -/
theorem overlaps_iff {p : Program} {r s : LiveRange} (hr : r ∈ p.liveRanges)
    (hs : s ∈ p.liveRanges) :
  r.overlaps s ↔ ¬ p.Separated r.name s.name
  := by
  have hcover := cover_liveRanges p
  have hoverlaps : r.overlaps s ↔ s.start ≤ r.stop ∧ r.start ≤ s.stop := by
    simp [LiveRange.overlaps]
  obtain ⟨a, ha, hra⟩ := hcover.start r hr
  obtain ⟨b, hb, hrb⟩ := hcover.stop r hr
  obtain ⟨c, hc, hsc⟩ := hcover.start s hs
  obtain ⟨d, hd, hsd⟩ := hcover.stop s hs
  rw [mem_occurrences] at ha hb hc hd
  rw [hoverlaps]
  constructor
  · rintro ⟨hle, hle'⟩ (hbefore | hafter)
    · have := hbefore b c hb hc
      omega
    · have := hafter a d ha hd
      omega
  · intro hnot
    rw [Separated, not_or] at hnot
    push Not at hnot
    obtain ⟨⟨m, n, hm, hn, hle⟩, m', n', hm', hn', hle'⟩ := hnot
    have hin := hcover.contain r hr
    have hin' := hcover.contain s hs
    have := hin m (mem_occurrences.mpr hm)
    have := hin m' (mem_occurrences.mpr hm')
    have := hin' n (mem_occurrences.mpr hn)
    have := hin' n' (mem_occurrences.mpr hn')
    omega

end Program

/-! ### Edges and neighbours -/

namespace Interference

/-- The index of a graph is there and says the same as its edges. -/
def Indexed (g : Interference) : Prop :=
  g.index.isSome ∧ ∀ a b, b ∈ g.neighbours a ↔ ⟨a, b⟩ ∈ g.edges

theorem mem_getD_adjust {d : Dict (List Text)} {k v a b : Text} :
  b ∈ ((d.adjust k [] (· ++ [v])).get? a).getD []
    ↔ b ∈ (d.get? a).getD [] ∨ (a = k ∧ b = v)
  := by
  rw [Dict.get?_adjust]
  by_cases h : k = a
  · rw [if_pos h, Option.getD_some, List.mem_append, List.mem_singleton]
    simp [h]
  · rw [if_neg h]
    simp [Ne.symm h]

/-- Adding an edge keeps the index in step with the edges. -/
theorem Indexed.addEdge {g : Interference} (h : g.Indexed) (a b : Text) :
  (g.addEdge a b).Indexed
  := by
  obtain ⟨hsome, hmem⟩ := h
  obtain ⟨ns, hns⟩ := Option.isSome_iff_exists.mp hsome
  simp only [neighbours, hns, Option.getD_some] at hmem
  constructor
  · simp [Interference.addEdge, hns]
  · intro x y
    simp only [neighbours, Interference.addEdge, hns, Option.map_some, Option.getD_some,
      mem_getD_adjust, hmem, List.mem_append, List.mem_cons, Conflict.mk.injEq, List.not_mem_nil,
      or_false, or_assoc]

variable {rs : List LiveRange}

theorem foldl_addNode {g : Interference} (h : g.Indexed) (rs : List LiveRange) :
  (rs.foldl (fun g r => g.addNode r.name) g).Indexed
    ∧ (rs.foldl (fun g r => g.addNode r.name) g).edges = g.edges
  := by
  induction rs generalizing g with
  | nil =>
      use h
      rfl
  | cons r rs ih =>
      have hnode : (g.addNode r.name).Indexed := h
      apply ih hnode

theorem foldl_addEdge {g : Interference} (h : g.Indexed) (cs : List (LiveRange × LiveRange)) :
  (cs.foldl (fun g (r, s) => g.addEdge r.name s.name) g).Indexed
    ∧ (cs.foldl (fun g (r, s) => g.addEdge r.name s.name) g).edges
      = g.edges ++ cs.flatMap fun (r, s) => [⟨r.name, s.name⟩, ⟨s.name, r.name⟩]
  := by
  induction cs generalizing g with
  | nil => simp [h]
  | cons c cs ih =>
      obtain ⟨hindexed, hedges⟩ := ih (h.addEdge c.1.name c.2.name)
      use hindexed
      rw [List.foldl_cons, hedges]
      simp [Interference.addEdge]

theorem indexed_empty :
  ({} : Interference).Indexed
  := by
  use rfl
  intro a b
  simp [neighbours, Dict.get?]

theorem indexed_ofRanges (rs : List LiveRange) :
  (ofRanges rs).Indexed
  := (foldl_addEdge (foldl_addNode indexed_empty rs).1 _).1

/-- What holds of the empty graph and is kept by nodes and edges holds of the graph of ranges. -/
theorem ofRanges_induction {P : Interference → Prop} (empty : P {})
    (node : ∀ g name, P g → P (g.addNode name)) (edge : ∀ g a b, P g → P (g.addEdge a b))
    (rs : List LiveRange) :
  P (ofRanges rs)
  := by
  have hnodes : ∀ (rs : List LiveRange) (g : Interference), P g →
      P (rs.foldl (fun g r => g.addNode r.name) g) := by
    intro rs
    induction rs with
    | nil =>
        intro g hg
        exact hg
    | cons r rs ih =>
        intro g hg
        exact ih _ (node g r.name hg)
  have hedges : ∀ (cs : List (LiveRange × LiveRange)) (g : Interference), P g →
      P (cs.foldl (fun g (r, s) => g.addEdge r.name s.name) g) := by
    intro cs
    induction cs with
    | nil =>
        intro g hg
        exact hg
    | cons c cs ih =>
        intro g hg
        exact ih _ (edge g c.1.name c.2.name hg)
  apply hedges
  apply hnodes
  exact empty

/-- No variable has a colour to begin with. -/
theorem colours_ofRanges (rs : List LiveRange) :
  (ofRanges rs).colours = ⟨[]⟩
  := by
  apply ofRanges_induction (P := fun g => g.colours = ⟨[]⟩)
  · rfl
  · exact fun g name h => h
  · exact fun g a b h => h

/-- The index is the one that the edges give, entry for entry. -/
theorem index_ofRanges (rs : List LiveRange) :
  (ofRanges rs).index = some (indexOfEdges (ofRanges rs).edges)
  := by
  apply ofRanges_induction (P := fun g => g.index = some (indexOfEdges g.edges))
  · rfl
  · exact fun g name h => h
  · intro g a b h
    change g.index.map _ = some (indexOfEdges (g.edges ++ [⟨a, b⟩, ⟨b, a⟩]))
    rw [h, indexOfEdges, indexOfEdges, List.foldl_append]
    rfl

theorem mem_edges_ofRanges {a b : Text} :
  ⟨a, b⟩ ∈ (ofRanges rs).edges
    ↔ ∃ r s, (r, s) ∈ pairs rs ∧ r.overlaps s ∧ (r.name = a ∧ s.name = b ∨ s.name = a ∧ r.name = b)
  := by
  obtain ⟨hindexed, hedges⟩ := foldl_addNode indexed_empty rs
  rw [ofRanges, (foldl_addEdge hindexed _).2, hedges]
  simp only [List.nil_append, List.mem_flatMap, List.mem_filter, List.mem_cons, Conflict.mk.injEq,
    List.not_mem_nil, or_false, Prod.exists]
  constructor
  · rintro ⟨r, s, ⟨hmem, hover⟩, h⟩
    use r, s, hmem, hover
    grind
  · rintro ⟨r, s, hmem, hover, h⟩
    use r, s, ⟨hmem, hover⟩
    grind

theorem mem_edges_ofRanges_comm {a b : Text} :
  ⟨a, b⟩ ∈ (ofRanges rs).edges ↔ ⟨b, a⟩ ∈ (ofRanges rs).edges
  := by
  rw [mem_edges_ofRanges, mem_edges_ofRanges]
  grind

theorem mem_pairs {r s : LiveRange} (hr : r ∈ rs) (hs : s ∈ rs) (hne : r ≠ s) :
  (r, s) ∈ pairs rs ∨ (s, r) ∈ pairs rs
  := by
  induction rs with
  | nil => cases hr
  | cons t rs ih =>
      rw [pairs, List.mem_append, List.mem_append]
      obtain rfl | hr' := List.mem_cons.mp hr
      · obtain rfl | hs' := List.mem_cons.mp hs
        · contradiction
        · left
          left
          apply List.mem_map_of_mem hs'
      · obtain rfl | hs' := List.mem_cons.mp hs
        · right
          left
          apply List.mem_map_of_mem hr'
        · obtain h | h := ih hr' hs'
          · left
            right
            apply h
          · right
            right
            apply h

theorem overlaps_comm (r s : LiveRange) :
  r.overlaps s = s.overlaps r
  := by
  rw [LiveRange.overlaps, LiveRange.overlaps, Bool.or_comm]

theorem mem_of_mem_pairs {r s : LiveRange} (h : (r, s) ∈ pairs rs) :
  r ∈ rs ∧ s ∈ rs
  := by
  induction rs with
  | nil => cases h
  | cons t rs ih =>
      rw [pairs, List.mem_append, List.mem_map] at h
      obtain ⟨x, hx, heq⟩ | h := h
      · cases heq
        exact ⟨List.mem_cons_self, List.mem_cons_of_mem _ hx⟩
      · exact ⟨List.mem_cons_of_mem _ (ih h).1, List.mem_cons_of_mem _ (ih h).2⟩

/-- Variables of different names have an edge exactly if they have ranges that overlap. -/
theorem mem_edges_iff {a b : Text} (hab : a ≠ b) :
  ⟨a, b⟩ ∈ (ofRanges rs).edges
    ↔ ∃ r ∈ rs, ∃ s ∈ rs, r.name = a ∧ s.name = b ∧ r.overlaps s
  := by
  rw [mem_edges_ofRanges]
  constructor
  · rintro ⟨r, s, hmem, hover, ⟨rfl, rfl⟩ | ⟨rfl, rfl⟩⟩
    · obtain ⟨hr, hs⟩ := mem_of_mem_pairs hmem
      exact ⟨r, hr, s, hs, rfl, rfl, hover⟩
    · obtain ⟨hr, hs⟩ := mem_of_mem_pairs hmem
      exact ⟨s, hs, r, hr, rfl, rfl, overlaps_comm r s ▸ hover⟩
  · rintro ⟨r, hr, s, hs, rfl, rfl, hover⟩
    obtain h | h := mem_pairs hr hs (fun heq => hab (congrArg _ heq))
    · exact ⟨r, s, h, hover, .inl ⟨rfl, rfl⟩⟩
    · exact ⟨s, r, h, overlaps_comm r s ▸ hover, .inr ⟨rfl, rfl⟩⟩

/-- The graph of a program joins two variables exactly if their occurrences are not separated. -/
theorem mem_edges_ofProgram {p : Program} {u v : Text} (huv : u ≠ v) :
  ⟨u, v⟩ ∈ (ofRanges p.liveRanges).edges ↔ ¬ p.Separated u v
  := by
  rw [mem_edges_iff huv]
  constructor
  · rintro ⟨r, hr, s, hs, rfl, rfl, hover⟩
    apply (Program.overlaps_iff hr hs).mp hover
  · intro hnot
    obtain ⟨m, hm⟩ : ∃ m, p.Occurs u m := by
      by_contra h
      push Not at h
      apply hnot (.inl fun m _ hm => absurd hm (h m))
    obtain ⟨n, hn⟩ : ∃ n, p.Occurs v n := by
      by_contra h
      push Not at h
      apply hnot (.inl fun _ n _ hn => absurd hn (h n))
    obtain ⟨r, hr, rfl⟩ := Program.exists_range hm
    obtain ⟨s, hs, rfl⟩ := Program.exists_range hn
    exact ⟨r, hr, s, hs, rfl, rfl, (Program.overlaps_iff hr hs).mpr hnot⟩

end Interference

end ThreeAddress
