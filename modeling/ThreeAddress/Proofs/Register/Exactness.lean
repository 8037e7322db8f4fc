import Mathlib.Data.List.Induction
import Mathlib.Order.Bounds.Basic
import ThreeAddress.Proofs.Register.Colouring

/-!
# Ranges and conflicts are exact

Every variable of a program has one live range, from the least to the greatest place where it is
written or read, and the ranges stand in the order in which the variables occur first.  In the graph
of these ranges two variables have an edge, once in each direction, exactly if their ranges share a
place.  The index of neighbours and the degrees say the same as the list of edges, and the index can
be made from it again with every neighbour in its place.
-/

namespace ThreeAddress

/-! ### Ranges -/

namespace Program

variable {p : Program} {v : Text} {n : Nat}

/-- The places where a variable is written or read. -/
def placesOf (p : Program) (v : Text) : Set Nat :=
  {n | ∃ i o, p[n]? = some i ∧ (o ∈ i.defs ∨ o ∈ i.uses) ∧ o.isVariable ∧ o.text = v}

theorem mem_placesOf :
  n ∈ p.placesOf v ↔ p.Occurs v n
  := by
  simp only [placesOf, Set.mem_ofPred_eq, Occurs, Instr.mentioned, Instr.operands, List.mem_map,
    List.mem_filter, List.mem_append]
  constructor
  · rintro ⟨i, o, hi, ho, hvar, htext⟩
    use i, hi, o, ⟨ho, hvar⟩
  · rintro ⟨i, hi, o, ⟨ho, hvar⟩, htext⟩
    use i, o, hi, ho, hvar

/-- The start of a function writes its parameters. -/
theorem mem_placesOf_of_param {i : Instr} (hi : p[n]? = some i) (hkind : i.kind = .functionStart)
    (hv : v ∈ i.params) :
  n ∈ p.placesOf v
  := by
  have hdefs : i.defs = i.params.map .var := by rw [Instr.defs, hkind]
  use i, .var v, hi
  refine ⟨.inl ?_, rfl, rfl⟩
  rw [hdefs]
  apply List.mem_map_of_mem hv

/-- The ranges `rs` are exactly those of the variables of `p`. -/
structure RangesExact (p : Program) (rs : List LiveRange) : Prop where
  /-- Every variable that occurs has a range, and only one. -/
  found : ∀ v, v ∈ rs.map (·.name) ↔ (p.placesOf v).Nonempty
  distinct : (rs.map (·.name)).Nodup
  /-- The ranges stand in the order in which the variables occur first. -/
  order : rs.map (·.name) = (p.flatMap Instr.mentioned).eraseDups
  /-- A range reaches from the least to the greatest place of its variable. -/
  extent : ∀ r ∈ rs, ∃ m n : Nat, r.start = m ∧ r.stop = n
    ∧ IsLeast (p.placesOf r.name) m ∧ IsGreatest (p.placesOf r.name) n
  /-- A parameter occurs where its function starts. -/
  parameter : ∀ (n : Nat) i, p[n]? = some i → i.kind = .functionStart →
    ∀ v ∈ i.params, n ∈ p.placesOf v

theorem eraseDups_concat (vs : List Text) (v : Text) :
  (vs ++ [v]).eraseDups = if v ∈ vs then vs.eraseDups else vs.eraseDups ++ [v]
  := by
  rw [List.eraseDups_append]
  split
  · next h => simp [List.removeAll, h]
  · next h => simp [List.removeAll, h, List.eraseDups_cons]

theorem map_fst_occurrencesFrom (start : Nat) (p : Program) :
  (occurrencesFrom start p).map (·.1) = p.flatMap Instr.mentioned
  := by
  induction p generalizing start with
  | nil => rfl
  | cons i p ih =>
      rw [occurrencesFrom, List.map_append, ih, List.flatMap_cons, List.map_map]
      simp [Function.comp_def]

/-- Noting occurrences one after another names every variable where it occurs first. -/
theorem names_foldl_note (occs : List (Text × Nat)) :
  (occs.foldl (fun s (name, place) => RangeList.note s name place) {}).names
    = (occs.map (·.1)).eraseDups
  := by
  induction occs using List.reverseRecOn with
  | nil => rfl
  | append_singleton occs o ih =>
      rw [List.foldl_concat, (RangeList.indexed_empty.foldl_note occs).names_note, ih,
        List.map_append, List.map_singleton, eraseDups_concat]
      simp only [List.mem_eraseDups]

theorem map_name_liveRanges (p : Program) :
  p.liveRanges.map (·.name) = (p.flatMap Instr.mentioned).eraseDups
  := by
  rw [← map_fst_occurrencesFrom 0]
  apply names_foldl_note

theorem mem_map_name_liveRanges :
  v ∈ p.liveRanges.map (·.name) ↔ (p.placesOf v).Nonempty
  := by
  constructor
  · intro h
    obtain ⟨r, hr, rfl⟩ := List.mem_map.mp h
    obtain ⟨n, hn, -⟩ := (cover_liveRanges p).start r hr
    use n
    apply mem_placesOf.mpr (mem_occurrences.mp hn)
  · rintro ⟨n, hn⟩
    apply (cover_liveRanges p).found (v, n) (mem_occurrences.mpr (mem_placesOf.mp hn))

theorem extent_of_mem_liveRanges {r : LiveRange} (hr : r ∈ p.liveRanges) :
  ∃ m n : Nat, r.start = m ∧ r.stop = n
    ∧ IsLeast (p.placesOf r.name) m ∧ IsGreatest (p.placesOf r.name) n
  := by
  have hcover := cover_liveRanges p
  obtain ⟨m, hm, hstart⟩ := hcover.start r hr
  obtain ⟨n, hn, hstop⟩ := hcover.stop r hr
  have hcontain : ∀ k ∈ p.placesOf r.name, r.start ≤ k ∧ (k : Int) ≤ r.stop := by
    intro k hk
    apply hcover.contain r hr k (mem_occurrences.mpr (mem_placesOf.mp hk))
  use m, n, hstart, hstop
  constructor
  · use mem_placesOf.mpr (mem_occurrences.mp hm)
    intro k hk
    have := (hcontain k hk).1
    omega
  · use mem_placesOf.mpr (mem_occurrences.mp hn)
    intro k hk
    have := (hcontain k hk).2
    omega

/-- The live ranges of a program are exactly those of its variables. -/
theorem rangesExact_liveRanges (p : Program) :
  p.RangesExact p.liveRanges
  where
  found _ := mem_map_name_liveRanges
  distinct := (cover_liveRanges p).distinct
  order := map_name_liveRanges p
  extent _ := extent_of_mem_liveRanges
  parameter _ _ hi hkind _ := mem_placesOf_of_param hi hkind

/-- A range of a program starts at a place of the program and is not empty. -/
theorem bounds_of_mem_liveRanges {r : LiveRange} (hr : r ∈ p.liveRanges) :
  0 ≤ r.start ∧ r.start ≤ r.stop
  := by
  obtain ⟨m, n, hstart, hstop, hleast, hgreatest⟩ := extent_of_mem_liveRanges hr
  have hle := hleast.2 hgreatest.1
  omega

end Program

/-- Whether a place lies in a range. -/
def LiveRange.Contains (r : LiveRange) (n : Int) : Prop := r.start ≤ n ∧ n ≤ r.stop

/-- Two ranges that are not empty overlap exactly if they share a place. -/
theorem LiveRange.overlaps_iff_exists {r s : LiveRange} (hr : 0 ≤ r.start ∧ r.start ≤ r.stop)
    (hs : 0 ≤ s.start ∧ s.start ≤ s.stop) :
  r.overlaps s ↔ ∃ n : Nat, r.Contains n ∧ s.Contains n
  := by
  have hoverlaps : r.overlaps s ↔ s.start ≤ r.stop ∧ r.start ≤ s.stop := by simp [overlaps]
  rw [hoverlaps]
  constructor
  · intro h
    use (max r.start s.start).toNat
    constructor
    · constructor
      · omega
      · omega
    · constructor
      · omega
      · omega
  · rintro ⟨n, ⟨hrn, hnr⟩, hsn, hns⟩
    omega

/-! ### Conflicts -/

namespace Interference

variable {rs : List LiveRange}

/-- The graph `g` has exactly the conflicts of the ranges `rs`. -/
structure ConflictsExact (rs : List LiveRange) (g : Interference) : Prop where
  nodes : g.nodes = rs.map (·.name)
  /-- Edges join, in both directions, the different variables whose ranges share a place. -/
  edge : ∀ a b, ⟨a, b⟩ ∈ g.edges
    ↔ a ≠ b ∧ ∃ r ∈ rs, ∃ s ∈ rs, r.name = a ∧ s.name = b ∧ ∃ n : Nat, r.Contains n ∧ s.Contains n
  /-- No edge is repeated. -/
  once : g.edges.Nodup
  /-- The neighbours of a variable are the nodes that an edge leads to, each once. -/
  neighbours : ∀ v, (g.neighbours v).Perm (g.nodes.filter fun u => decide (⟨v, u⟩ ∈ g.edges))
  /-- The degree of a node is the number of its neighbours, and nothing else has a degree. -/
  degrees : ∀ v,
    g.degrees.get? v = if v ∈ g.nodes then some (g.neighbours v).length else none

/-- The two edges of a conflict. -/
def bothWays (c : LiveRange × LiveRange) : List Conflict :=
  [⟨c.1.name, c.2.name⟩, ⟨c.2.name, c.1.name⟩]

theorem edges_ofRanges (rs : List LiveRange) :
  (ofRanges rs).edges = ((pairs rs).filter fun c => c.1.overlaps c.2).flatMap bothWays
  := by
  obtain ⟨hindexed, hedges⟩ := foldl_addNode indexed_empty rs
  rw [ofRanges, (foldl_addEdge hindexed _).2, hedges]
  rfl

/-- The two ranges of a pair have different names. -/
theorem name_ne_of_mem_pairs (hnodup : (rs.map (·.name)).Nodup) {r s : LiveRange}
    (h : (r, s) ∈ pairs rs) :
  r.name ≠ s.name
  := by
  induction rs with
  | nil => cases h
  | cons t rs ih =>
      rw [List.map_cons, List.nodup_cons] at hnodup
      rw [pairs, List.mem_append, List.mem_map] at h
      obtain ⟨s', hs', heq⟩ | h := h
      · cases heq
        intro hname
        apply hnodup.1
        rw [hname]
        apply List.mem_map_of_mem hs'
      · apply ih hnodup.2 h

/-- The edges of two different pairs are different. -/
theorem pairs_pairwise_disjoint (hnodup : (rs.map (·.name)).Nodup) :
  (pairs rs).Pairwise (Function.onFun List.Disjoint bothWays)
  := by
  induction rs with
  | nil => apply List.Pairwise.nil
  | cons t rs ih =>
      rw [List.map_cons, List.nodup_cons] at hnodup
      have hnot : ∀ s ∈ rs, t.name ≠ s.name := by
        intro s hs hname
        apply hnodup.1
        rw [hname]
        apply List.mem_map_of_mem hs
      rw [pairs, List.pairwise_append]
      refine ⟨?_, ih hnodup.2, ?_⟩
      · rw [List.pairwise_map]
        apply (List.pairwise_map.mp hnodup.2).imp_of_mem
        intro s s' hs hs' hne
        have := hnot s hs
        have := hnot s' hs'
        simp only [Function.onFun, List.Disjoint, bothWays, List.mem_cons, List.not_mem_nil]
        grind
      · intro c hc d hd
        obtain ⟨s, hs, rfl⟩ := List.mem_map.mp hc
        obtain ⟨hfst, hsnd⟩ := mem_of_mem_pairs hd
        have := hnot _ hfst
        have := hnot _ hsnd
        simp only [Function.onFun, List.Disjoint, bothWays, List.mem_cons, List.not_mem_nil]
        grind

/-- No edge is repeated. -/
theorem edges_ofRanges_nodup (hnodup : (rs.map (·.name)).Nodup) :
  (ofRanges rs).edges.Nodup
  := by
  rw [edges_ofRanges, List.nodup_flatMap]
  constructor
  · rintro ⟨r, s⟩ h
    have hne := name_ne_of_mem_pairs hnodup (List.mem_filter.mp h).1
    simp [bothWays, hne]
  · apply (pairs_pairwise_disjoint hnodup).filter

/-- Edges join different variables whose ranges overlap. -/
theorem mem_edges_ofRanges_iff (hnodup : (rs.map (·.name)).Nodup) {a b : Text} :
  ⟨a, b⟩ ∈ (ofRanges rs).edges
    ↔ a ≠ b ∧ ∃ r ∈ rs, ∃ s ∈ rs, r.name = a ∧ s.name = b ∧ r.overlaps s
  := by
  constructor
  · intro h
    have hab : a ≠ b := by
      obtain ⟨r, s, hpair, -, ⟨rfl, rfl⟩ | ⟨rfl, rfl⟩⟩ := mem_edges_ofRanges.mp h
      · apply name_ne_of_mem_pairs hnodup hpair
      · apply (name_ne_of_mem_pairs hnodup hpair).symm
    use hab
    apply (mem_edges_iff hab).mp h
  · rintro ⟨hab, h⟩
    apply (mem_edges_iff hab).mpr h

/-- The index that edges give lists, for every variable, the ends of the edges from it. -/
theorem getD_get?_indexOfEdges (es : List Conflict) (v : Text) :
  ((indexOfEdges es).get? v).getD [] = (es.filter (·.source == v)).map (·.target)
  := by
  induction es using List.reverseRecOn with
  | nil => rfl
  | append_singleton es e ih =>
      rw [indexOfEdges, List.foldl_concat, ← indexOfEdges, Dict.get?_adjust, List.filter_append,
        List.map_append, ← ih]
      split
      · next h => simp [h]
      · next h => simp [h]

theorem neighbours_ofRanges (rs : List LiveRange) (v : Text) :
  (ofRanges rs).neighbours v
    = ((ofRanges rs).edges.filter (·.source == v)).map (·.target)
  := by
  rw [neighbours, index_ofRanges, Option.getD_some, getD_get?_indexOfEdges]

theorem neighbours_ofRanges_nodup (hnodup : (rs.map (·.name)).Nodup) (v : Text) :
  ((ofRanges rs).neighbours v).Nodup
  := by
  rw [neighbours_ofRanges]
  apply List.Nodup.map_on _ ((edges_ofRanges_nodup hnodup).filter _)
  rintro ⟨a, b⟩ he ⟨c, d⟩ he' heq
  have hsource := beq_iff_eq.mp (List.mem_filter.mp he).2
  have hsource' := beq_iff_eq.mp (List.mem_filter.mp he').2
  rw [Conflict.mk.injEq]
  exact ⟨hsource.trans hsource'.symm, heq⟩

/-- The neighbours of a variable are the nodes that an edge leads to. -/
theorem neighbours_ofRanges_perm (hnodup : (rs.map (·.name)).Nodup) (v : Text) :
  ((ofRanges rs).neighbours v).Perm
    ((ofRanges rs).nodes.filter fun u => decide (⟨v, u⟩ ∈ (ofRanges rs).edges))
  := by
  have hnodes := (counted_ofRanges rs).2
  rw [List.perm_ext_iff_of_nodup (neighbours_ofRanges_nodup hnodup v)]
  · intro u
    rw [(indexed_ofRanges rs).2, List.mem_filter, decide_eq_true_eq, hnodes]
    constructor
    · intro h
      obtain ⟨-, r, -, s, hs, -, rfl, -⟩ := (mem_edges_ofRanges_iff hnodup).mp h
      use List.mem_map_of_mem hs
    · rintro ⟨-, h⟩
      apply h
  · rw [hnodes]
    apply hnodup.filter

/-- Edges between nodes give no degree to anything else. -/
theorem isSome_degrees_foldl_addEdge {g : Interference} (cs : List (LiveRange × LiveRange))
    (hkeys : ∀ v, (g.degrees.get? v).isSome ↔ v ∈ g.nodes)
    (hcs : ∀ c ∈ cs, c.1.name ∈ g.nodes ∧ c.2.name ∈ g.nodes) (v : Text) :
  ((cs.foldl (fun g (r, s) => g.addEdge r.name s.name) g).degrees.get? v).isSome ↔ v ∈ g.nodes
  := by
  induction cs generalizing g with
  | nil => apply hkeys
  | cons c cs ih =>
      obtain ⟨hfst, hsnd⟩ := hcs c List.mem_cons_self
      apply ih (g := g.addEdge c.1.name c.2.name)
      · intro u
        change (((g.degrees.adjust c.1.name 0 (· + 1)).adjust c.2.name 0 (· + 1)).get? u).isSome
          ↔ u ∈ g.nodes
        rw [Dict.get?_adjust, Dict.get?_adjust, ← hkeys]
        rw [← hkeys] at hfst hsnd
        grind
      · intro d hd
        apply hcs d (List.mem_cons_of_mem _ hd)

theorem isSome_degrees_foldl_addNode {g : Interference} (rs : List LiveRange)
    (hkeys : ∀ v, (g.degrees.get? v).isSome ↔ v ∈ g.nodes) (v : Text) :
  ((rs.foldl (fun g r => g.addNode r.name) g).degrees.get? v).isSome
    ↔ v ∈ (rs.foldl (fun g r => g.addNode r.name) g).nodes
  := by
  induction rs generalizing g with
  | nil => apply hkeys
  | cons r rs ih =>
      apply ih (g := g.addNode r.name)
      intro u
      change ((g.degrees.insert r.name 0).get? u).isSome ↔ u ∈ g.nodes ++ [r.name]
      rw [Dict.get?_insert, List.mem_append, List.mem_singleton, ← hkeys]
      grind

/-- The nodes have a degree, and nothing else has one. -/
theorem isSome_degrees_ofRanges (rs : List LiveRange) (v : Text) :
  ((ofRanges rs).degrees.get? v).isSome ↔ v ∈ (ofRanges rs).nodes
  := by
  have hnodes : (rs.foldl (fun g r => g.addNode r.name) ({} : Interference)).nodes
      = rs.map (·.name) := (foldl_addNode_eq rs {} (fun _ => rfl)).2.1
  rw [ofRanges, isSome_degrees_foldl_addEdge, hnodes, ← ofRanges, (counted_ofRanges rs).2]
  · apply isSome_degrees_foldl_addNode
    intro u
    simp [Dict.get?]
  · rintro ⟨r, s⟩ h
    obtain ⟨hr, hs⟩ := mem_of_mem_pairs (List.mem_filter.mp h).1
    rw [hnodes]
    use List.mem_map_of_mem hr
    apply List.mem_map_of_mem hs

theorem get?_degrees_ofRanges (rs : List LiveRange) (v : Text) :
  (ofRanges rs).degrees.get? v
    = if v ∈ (ofRanges rs).nodes then some ((ofRanges rs).neighbours v).length else none
  := by
  have hcount := (counted_ofRanges rs).1.2 v
  have hsome := isSome_degrees_ofRanges rs v
  rw [degree] at hcount
  split
  · next h =>
    obtain ⟨d, hd⟩ := Option.isSome_iff_exists.mp (hsome.mpr h)
    rw [hd, Option.getD_some] at hcount
    rw [hd, hcount]
  · next h =>
    rw [← hsome, Option.not_isSome_iff_eq_none] at h
    apply h

/-- The graph of ranges with distinct names has exactly their conflicts. -/
theorem conflictsExact_ofRanges (hnodup : (rs.map (·.name)).Nodup)
    (hbounds : ∀ r ∈ rs, 0 ≤ r.start ∧ r.start ≤ r.stop) :
  ConflictsExact rs (ofRanges rs)
  where
  nodes := (counted_ofRanges rs).2
  edge a b := by
    rw [mem_edges_ofRanges_iff hnodup]
    apply and_congr_right
    intro _
    constructor
    · rintro ⟨r, hr, s, hs, hra, hsb, h⟩
      use r, hr, s, hs, hra, hsb
      apply (LiveRange.overlaps_iff_exists (hbounds r hr) (hbounds s hs)).mp h
    · rintro ⟨r, hr, s, hs, hra, hsb, h⟩
      use r, hr, s, hs, hra, hsb
      apply (LiveRange.overlaps_iff_exists (hbounds r hr) (hbounds s hs)).mpr h
  once := edges_ofRanges_nodup hnodup
  neighbours := neighbours_ofRanges_perm hnodup
  degrees := get?_degrees_ofRanges rs

/-! ### Neighbours in their order -/

/-- The neighbours that `v` has because two ranges overlap: the variable of the other range, seen
from either of them. -/
def partners (v : Text) (c : LiveRange × LiveRange) : List Text :=
  (if c.1.name = v then [c.2.name] else []) ++ if c.2.name = v then [c.1.name] else []

theorem map_target_bothWays (v : Text) (c : LiveRange × LiveRange) :
  ((bothWays c).filter (·.source == v)).map (·.target) = partners v c
  := by
  rw [bothWays, partners]
  by_cases hfst : c.1.name = v
  · by_cases hsnd : c.2.name = v
    · simp [hfst, hsnd]
    · simp [hfst, hsnd]
  · by_cases hsnd : c.2.name = v
    · simp [hfst, hsnd]
    · simp [hfst, hsnd]

/-- The graph that reading neighbours leaves behind: an index that was dropped is made from the
edges. -/
def reindexed (g : Interference) : Interference :=
  { g with index := some (g.index.getD (indexOfEdges g.edges)) }

theorem neighbours_reindexed (g : Interference) (v : Text) :
  g.reindexed.neighbours v = g.neighbours v
  := rfl

/-- The index that the edges give is the one that was dropped. -/
theorem reindexed_dropIndex_ofRanges (rs : List LiveRange) :
  (ofRanges rs).dropIndex.reindexed = ofRanges rs
  := by
  rw [reindexed, dropIndex, Option.getD_none, ← index_ofRanges]

/-- Without its index the graph of ranges has the same neighbours in the same order: one for every
pair of ranges that overlap and of which one is the variable's, and both if both are. -/
theorem neighbours_without_index (rs : List LiveRange) (v : Text) :
  (ofRanges rs).dropIndex.neighbours v = (ofRanges rs).neighbours v
    ∧ (ofRanges rs).neighbours v
      = ((pairs rs).filter fun c => c.1.overlaps c.2).flatMap (partners v)
    ∧ (ofRanges rs).dropIndex.reindexed = ofRanges rs
  := by
  have hback := reindexed_dropIndex_ofRanges rs
  refine ⟨?_, ?_, hback⟩
  · rw [← neighbours_reindexed, hback]
  · rw [neighbours_ofRanges, edges_ofRanges, List.filter_flatMap, List.map_flatMap]
    apply List.flatMap_congr
    intro c _
    apply map_target_bothWays

end Interference

/-- The live ranges of every program are exact, and so is the graph of their conflicts. -/
theorem ranges_and_conflicts_exact (p : Program) :
  p.RangesExact p.liveRanges
    ∧ Interference.ConflictsExact p.liveRanges (Interference.ofRanges p.liveRanges)
  := by
  have hranges := p.rangesExact_liveRanges
  use hranges
  apply Interference.conflictsExact_ofRanges hranges.distinct
  intro r hr
  apply Program.bounds_of_mem_liveRanges hr

end ThreeAddress
