import ThreeAddress.Proofs.Register.Allocation

/-!
# Greedy colouring

The allocation decides the variables one after the other and never takes a decision back.  So what
a variable gets can be read off the final colours: it has the least colour that none of its
neighbours decided before it has, and it is spilled exactly if these neighbours have all colours.
In particular a variable with fewer neighbours than there are registers always gets one.
-/

namespace ThreeAddress

namespace Interference

variable {g : Interference} {file : List Text} {v : Text} {c : Nat}

/-! ### One decision -/

/-- A neighbour of `v` that was decided earlier has the colour `c`. -/
def Taken (g : Interference) (earlier : Text → Prop) (v : Text) (c : Nat) : Prop :=
  ∃ u ∈ g.neighbours v, earlier u ∧ g.colours.get? u = some c

/-- The variable `v` has the least of the first `count` colours that is not taken by a neighbour
decided earlier, and no colour exactly if all of them are taken. -/
structure Decided (g : Interference) (count : Nat) (earlier : Text → Prop) (v : Text) : Prop where
  colour : ∀ c, g.colours.get? v = some c
    ↔ c < count ∧ ¬ g.Taken earlier v c ∧ ∀ c' < c, g.Taken earlier v c'
  none : g.colours.get? v = none ↔ ∀ c < count, g.Taken earlier v c

theorem mem_used_iff :
  c ∈ (g.neighbours v).filterMap g.colours.get? ↔ g.Taken (fun _ => True) v c
  := by
  simp [Taken]

theorem freeColour?_eq_some_iff {count : Nat} :
  g.freeColour? count v = some c
    ↔ c < count ∧ ¬ g.Taken (fun _ => True) v c ∧ ∀ c' < c, g.Taken (fun _ => True) v c'
  := by
  rw [freeColour?, List.find?_range_eq_some]
  simp only [← mem_used_iff, List.contains_eq_mem, Bool.not_eq_true', decide_eq_false_iff_not,
    Bool.not_not, decide_eq_true_eq, List.mem_range]
  tauto

theorem freeColour?_eq_none_iff {count : Nat} :
  g.freeColour? count v = none ↔ ∀ c < count, g.Taken (fun _ => True) v c
  := by
  simp [freeColour?, ← mem_used_iff]

/-- Placing a variable that has no colour yet gives it the free colour, if there is one. -/
theorem get?_place_self (h : g.colours.get? v = none) :
  (g.place file v).1.colours.get? v = g.freeColour? file.length v
  := by
  rw [place]
  split
  · next c hfree => rw [hfree, paint, Dict.get?_insert_self]
  · next hfree => rw [hfree, h]

theorem get?_place_of_ne {u : Text} (h : v ≠ u) :
  (g.place file v).1.colours.get? u = g.colours.get? u
  := by
  rw [place]
  split
  · rw [paint, Dict.get?_insert_of_ne _ _ h]
  · rfl

/-- A placement gives no colour to the variables that are left. -/
theorem uncoloured_erase {work : List Text} (hnodup : work.Nodup)
    (hwork : ∀ u ∈ work, g.colours.get? u = none) (v : Text) :
  ∀ u ∈ work.erase v, (g.place file v).1.colours.get? u = none
  := by
  intro u hu
  obtain ⟨hne, hmem⟩ := hnodup.mem_erase_iff.mp hu
  rw [get?_place_of_ne (Ne.symm hne), hwork u hmem]

/-- A placement changes nothing but the colours. -/
theorem place_colours (g : Interference) (file : List Text) (v : Text) :
  (g.place file v).1 = { g with colours := (g.place file v).1.colours }
  := by
  rw [place]
  split
  · rfl
  · rfl

/-! ### A run of decisions -/

theorem colourFrom_colours (g : Interference) (file : List Text) (index : Nat)
    (work : List Text) :
  (g.colourFrom file index work).1
    = { g with colours := (g.colourFrom file index work).1.colours }
  := by
  apply colourFrom_induction (P := fun g' => g' = { g with colours := g'.colours })
  · intro g' name h
    rw [place_colours, h]
  · rfl

/-- The run keeps the colour of every variable that is not on its work list. -/
theorem get?_colourFrom_of_notMem {u : Text} {index : Nat} {work : List Text} (h : u ∉ work) :
  (g.colourFrom file index work).1.colours.get? u = g.colours.get? u
  := by
  fun_induction colourFrom g file index work with
  | case1 g index => rfl
  | case2 g index first rest name g' placement hplace g'' steps htail ih =>
      have hne : name ≠ u := by
        rintro rfl
        apply h (g.leastDegree_mem first rest)
      have hg' : g' = (g.place file name).1 := by rw [hplace]
      rw [htail] at ih
      rw [ih (fun hmem => h (List.mem_of_mem_erase hmem)), hg', get?_place_of_ne hne]

/-- Every variable of the work list is decided once. -/
theorem map_node_colourFrom (g : Interference) (file : List Text) (index : Nat)
    (work : List Text) :
  ((g.colourFrom file index work).2.map (·.node)).Perm work
  := by
  fun_induction colourFrom g file index work with
  | case1 g index => rfl
  | case2 g index first rest name g' placement hplace g'' steps htail ih =>
      rw [htail] at ih
      rw [List.map_cons]
      apply (ih.cons name).trans
      apply (List.perm_cons_erase (g.leastDegree_mem first rest)).symm

theorem neighbours_place (g : Interference) (file : List Text) (v u : Text) :
  (g.place file v).1.neighbours u = g.neighbours u
  := by
  rw [place_colours]
  rfl

theorem neighbours_colourFrom (g : Interference) (file : List Text) (index : Nat)
    (work : List Text) (u : Text) :
  (g.colourFrom file index work).1.neighbours u = g.neighbours u
  := by
  rw [colourFrom_colours]
  rfl

/-- A variable that gets its free colour in `g` is decided in `g'`, if the neighbours decided
earlier have kept their colours since then and the others had none. -/
theorem decided_of_free {g' : Interference} {count : Nat} {earlier : Text → Prop}
    (hcolour : g'.colours.get? v = g.freeColour? count v)
    (hneighbours : g'.neighbours v = g.neighbours v)
    (hsame : ∀ u, earlier u → g'.colours.get? u = g.colours.get? u)
    (hnone : ∀ u, ¬ earlier u → g.colours.get? u = none) :
  g'.Decided count earlier v
  := by
  have htaken : ∀ c, g'.Taken earlier v c ↔ g.Taken (fun _ => True) v c := by
    intro c
    rw [Taken, Taken, hneighbours]
    constructor
    · rintro ⟨u, hu, hearlier, hc⟩
      exact ⟨u, hu, trivial, hsame u hearlier ▸ hc⟩
    · rintro ⟨u, hu, -, hc⟩
      have hearlier : earlier u := by
        by_contra hnot
        rw [hnone u hnot] at hc
        cases hc
      exact ⟨u, hu, hearlier, (hsame u hearlier).trans hc⟩
  constructor
  · intro c
    rw [hcolour, freeColour?_eq_some_iff]
    simp only [htaken]
  · rw [hcolour, freeColour?_eq_none_iff]
    simp only [htaken]

/-- Which variables count as decided earlier matters only for neighbours. -/
theorem Decided.congr {count : Nat} {earlier earlier' : Text → Prop}
    (h : g.Decided count earlier v) (hearlier : ∀ u ∈ g.neighbours v, earlier u ↔ earlier' u) :
  g.Decided count earlier' v
  := by
  have htaken : ∀ c, g.Taken earlier v c ↔ g.Taken earlier' v c := by
    intro c
    apply exists_congr
    intro u
    apply and_congr_right
    intro hu
    rw [hearlier u hu]
  constructor
  · intro c
    simp only [← htaken]
    apply h.colour
  · simp only [← htaken]
    apply h.none

/-- Every variable of a run is decided by its neighbours that the run does not decide or decides
before it. -/
theorem decided_colourFrom {index : Nat} {work : List Text} (hnodup : work.Nodup)
    (hwork : ∀ u ∈ work, g.colours.get? u = none) {k : Nat} {step : AllocationStep}
    (hstep : (g.colourFrom file index work).2[k]? = some step) :
  (g.colourFrom file index work).1.Decided file.length
    (fun u => u ∉ work ∨ u ∈ ((g.colourFrom file index work).2.take k).map (·.node)) step.node
  := by
  fun_induction colourFrom g file index work generalizing k with
  | case1 g index => cases hstep
  | case2 g index first rest name g' placement hplace g'' steps htail ih =>
      have hname : name ∈ first :: rest := g.leastDegree_mem first rest
      have hg' : g' = (g.place file name).1 := by rw [hplace]
      have hg'' : g'' = (g'.colourFrom file (index + 1) ((first :: rest).erase name)).1 := by
        rw [htail]
      have hother : ∀ u, u ∉ first :: rest → name ≠ u := by
        rintro u hu rfl
        apply hu hname
      have herase : ∀ u, u ∈ (first :: rest).erase name ↔ u ≠ name ∧ u ∈ first :: rest :=
        fun u => hnodup.mem_erase_iff
      cases k with
      | zero =>
          cases hstep
          apply decided_of_free (g := g)
          · rw [hg'', get?_colourFrom_of_notMem (by simp [herase]), hg',
              get?_place_self (hwork name hname)]
          · rw [hg'', neighbours_colourFrom, hg', neighbours_place]
          · rintro u (hu | hu)
            · rw [hg'', get?_colourFrom_of_notMem (by simp [herase, hu]), hg',
                get?_place_of_ne (hother u hu)]
            · cases hu
          · intro u hu
            apply hwork u
            by_contra hnot
            apply hu (.inl hnot)
      | succ k =>
          have hwork' : ∀ u ∈ (first :: rest).erase name, g'.colours.get? u = none := by
            rw [hg']
            apply uncoloured_erase hnodup hwork
          rw [htail] at ih
          apply (ih (hnodup.erase name) hwork' hstep).congr
          intro u _
          rw [herase, not_and_or, not_not, List.take_succ_cons, List.map_cons]
          simp only [List.mem_cons]
          grind

/-- At every step of a run the variables decided up to it have their final colours, and those that
are still to be decided have none. -/
theorem colours_colourFrom {index : Nat} {work : List Text} (hnodup : work.Nodup)
    (hwork : ∀ u ∈ work, g.colours.get? u = none) {k : Nat} {step : AllocationStep}
    (hstep : (g.colourFrom file index work).2[k]? = some step) (u : Text) :
  step.colours.get? u
    = if u ∉ work ∨ u ∈ ((g.colourFrom file index work).2.take (k + 1)).map (·.node)
      then (g.colourFrom file index work).1.colours.get? u else none
  := by
  fun_induction colourFrom g file index work generalizing k with
  | case1 g index => cases hstep
  | case2 g index first rest name g' placement hplace g'' steps htail ih =>
      have hg' : g' = (g.place file name).1 := by rw [hplace]
      have herase : u ∈ (first :: rest).erase name ↔ u ≠ name ∧ u ∈ first :: rest :=
        hnodup.mem_erase_iff
      have hwork' : ∀ u ∈ (first :: rest).erase name, g'.colours.get? u = none := by
        rw [hg']
        apply uncoloured_erase hnodup hwork
      rw [htail] at ih
      cases k with
      | zero =>
          cases hstep
          have hkept : u ∉ (first :: rest).erase name → g''.colours.get? u = g'.colours.get? u := by
            intro hu
            have h : (g'.colourFrom file (index + 1) ((first :: rest).erase name)).1.colours.get? u
                = g'.colours.get? u := get?_colourFrom_of_notMem hu
            rw [htail] at h
            apply h
          simp only [Nat.zero_add, List.take_succ_cons, List.take_zero, List.map_cons, List.map_nil,
            List.mem_singleton]
          split
          · next h =>
            rw [hkept]
            grind
          · next h =>
            apply hwork'
            grind
      | succ k =>
          rw [ih (hnodup.erase name) hwork' hstep, List.take_succ_cons, List.map_cons]
          apply if_congr _ rfl rfl
          rw [herase, not_and_or, not_not]
          simp only [List.mem_cons]
          grind

/-! ### Degrees -/

/-- The degree of every variable is the number of its neighbours. -/
def Counted (g : Interference) : Prop :=
  g.index.isSome ∧ ∀ v, g.degree v = (g.neighbours v).length

theorem Counted.addEdge (h : g.Counted) (a b : Text) :
  (g.addEdge a b).Counted
  := by
  obtain ⟨hsome, hcount⟩ := h
  obtain ⟨ns, hns⟩ := Option.isSome_iff_exists.mp hsome
  simp only [degree, neighbours, hns, Option.getD_some] at hcount
  have hdegree : ∀ (d : Dict Nat) (ns : Dict (List Text)) (k x : Text),
      (∀ v, (d.get? v).getD 0 = ((ns.get? v).getD []).length) →
      ∀ v, ((d.adjust k 0 (· + 1)).get? v).getD 0
        = (((ns.adjust k [] (· ++ [x])).get? v).getD []).length := by
    intro d ns k x h v
    rw [Dict.get?_adjust, Dict.get?_adjust]
    split
    · simp [h]
    · apply h
  constructor
  · simp [Interference.addEdge, hns]
  · simp only [degree, neighbours, Interference.addEdge, hns, Option.map_some, Option.getD_some]
    apply hdegree
    apply hdegree
    apply hcount

/-- The nodes of the graph before its edges are added. -/
theorem foldl_addNode_eq (rs : List LiveRange) (g : Interference) (hzero : ∀ v, g.degree v = 0) :
  (rs.foldl (fun g r => g.addNode r.name) g).index = g.index
    ∧ (rs.foldl (fun g r => g.addNode r.name) g).nodes = g.nodes ++ rs.map (·.name)
    ∧ ∀ v, (rs.foldl (fun g r => g.addNode r.name) g).degree v = 0
  := by
  induction rs generalizing g with
  | nil => simp [hzero]
  | cons r rs ih =>
      have hdegree : ∀ v, (g.addNode r.name).degree v = 0 := by
        intro v
        rw [degree, addNode, Dict.get?_insert]
        split
        · rfl
        · apply hzero
      obtain ⟨hindex, hnodes, hzero⟩ := ih (g.addNode r.name) hdegree
      refine ⟨hindex, ?_, hzero⟩
      rw [List.foldl_cons, hnodes]
      simp [addNode]

theorem foldl_addEdge_counted (cs : List (LiveRange × LiveRange)) (h : g.Counted) :
  (cs.foldl (fun g (r, s) => g.addEdge r.name s.name) g).Counted
    ∧ (cs.foldl (fun g (r, s) => g.addEdge r.name s.name) g).nodes = g.nodes
  := by
  induction cs generalizing g with
  | nil => exact ⟨h, rfl⟩
  | cons c cs ih => apply ih (h.addEdge c.1.name c.2.name)

theorem counted_ofRanges (rs : List LiveRange) :
  (ofRanges rs).Counted ∧ (ofRanges rs).nodes = rs.map (·.name)
  := by
  obtain ⟨hindex, hnodes, hzero⟩ := foldl_addNode_eq rs {} (fun _ => rfl)
  have hcounted : (rs.foldl (fun g r => g.addNode r.name) ({} : Interference)).Counted := by
    constructor
    · rw [hindex]
      rfl
    · intro v
      rw [hzero, neighbours, hindex]
      rfl
  obtain ⟨hcounted, hnodes'⟩ := foldl_addEdge_counted _ hcounted
  use hcounted
  rw [ofRanges, hnodes', hnodes]
  rfl

/-- A variable with fewer than `count` neighbours never finds all of `count` colours taken. -/
theorem le_degree_of_taken {count : Nat} {earlier : Text → Prop} (h : g.Counted)
    (htaken : ∀ c < count, g.Taken earlier v c) :
  count ≤ g.degree v
  := by
  have hsubset : List.range count ⊆ (g.neighbours v).filterMap g.colours.get? := by
    intro c hc
    obtain ⟨u, hu, -, hcolour⟩ := htaken c (List.mem_range.mp hc)
    apply List.mem_filterMap.mpr ⟨u, hu, hcolour⟩
  calc
    count = (List.range count).length := List.length_range.symm
    _ ≤ ((g.neighbours v).filterMap g.colours.get?).length :=
      (List.subperm_of_subset List.nodup_range hsubset).length_le
    _ ≤ (g.neighbours v).length := List.length_filterMap_le _ _
    _ = g.degree v := (h.2 v).symm

theorem uncoloured_ofRanges (rs : List LiveRange) :
  ∀ u ∈ (ofRanges rs).nodes, (ofRanges rs).colours.get? u = none
  := by
  intro u _
  rw [colours_ofRanges]
  rfl

/-- In the colouring of a graph of ranges, every variable is decided by its neighbours that were
decided before it. -/
theorem decided_colour {rs : List LiveRange} (hnodup : (rs.map (·.name)).Nodup) {k : Nat}
    {step : AllocationStep} (hstep : ((ofRanges rs).colour file).2[k]? = some step) :
  ((ofRanges rs).colour file).1.Decided file.length
    (· ∈ (((ofRanges rs).colour file).2.take k).map (·.node)) step.node
  := by
  have hnodes := (counted_ofRanges rs).2
  rw [← hnodes] at hnodup
  apply (decided_colourFrom hnodup (uncoloured_ofRanges rs) hstep).congr
  intro u hu
  rw [neighbours_colourFrom, (indexed_ofRanges rs).2, mem_edges_ofRanges] at hu
  obtain ⟨r, s, hmem, -, h⟩ := hu
  obtain ⟨hr, hs⟩ := mem_of_mem_pairs hmem
  have hnode : u ∈ (ofRanges rs).nodes := by
    rw [hnodes, List.mem_map]
    obtain ⟨-, rfl⟩ | ⟨-, rfl⟩ := h
    · exact ⟨s, hs, rfl⟩
    · exact ⟨r, hr, rfl⟩
  simp only [hnode, not_true_eq_false, false_or, colour]

end Interference

namespace Allocation

variable {file : RegisterFile} {blocks : Option Graph} {p : Program}

theorem graph_nodes (file : RegisterFile) (blocks : Option Graph) (p : Program) :
  (ofProgram file blocks p).graph.nodes = p.liveRanges.map (·.name)
  := by
  change ((Interference.ofRanges p.liveRanges).colour file.names).1.nodes = _
  rw [Interference.colour, Interference.colourFrom_colours]
  apply (Interference.counted_ofRanges p.liveRanges).2

theorem graph_nodes_nodup (file : RegisterFile) (blocks : Option Graph) (p : Program) :
  (ofProgram file blocks p).graph.nodes.Nodup
  := by
  rw [graph_nodes]
  apply (Program.cover_liveRanges p).distinct

theorem graph_counted (file : RegisterFile) (blocks : Option Graph) (p : Program) :
  (ofProgram file blocks p).graph.Counted
  := by
  change ((Interference.ofRanges p.liveRanges).colour file.names).1.Counted
  rw [Interference.colour, Interference.colourFrom_colours]
  apply (Interference.counted_ofRanges p.liveRanges).1

theorem steps_perm (file : RegisterFile) (blocks : Option Graph) (p : Program) :
  ((ofProgram file blocks p).steps.map (·.node)).Perm (ofProgram file blocks p).graph.nodes
  := by
  rw [graph_nodes, ← (Interference.counted_ofRanges p.liveRanges).2]
  apply Interference.map_node_colourFrom

/-- The variables decided before the step of number `k`. -/
def decidedBefore (a : Allocation) (k : Nat) : List Text := (a.steps.take k).map (·.node)

/-- At the step of number `k`, a neighbour of `v` that was decided before has the colour `c`. -/
def TakenAt (a : Allocation) (k : Nat) (v : Text) (c : Nat) : Prop :=
  a.graph.Taken (· ∈ a.decidedBefore k) v c

/-- The allocation `a` places the variables of `p` in `count` registers greedily. -/
structure Greedy (a : Allocation) (p : Program) (count : Nat) : Prop where
  file : a.file.length = count
  nodes : a.graph.nodes = p.liveRanges.map (·.name) ∧ a.graph.nodes.Nodup
  /-- Every variable either has a register or is spilled, and is listed once. -/
  complete : (a.registers.keys ++ a.spilled).Perm a.graph.nodes
  /-- Variables whose ranges overlap have different registers. -/
  proper : ∀ r ∈ p.liveRanges, ∀ s ∈ p.liveRanges, r.name ≠ s.name → r.overlaps s →
    ∀ register, a.registers.get? r.name = some register → a.registers.get? s.name ≠ some register
  /-- Every variable is decided in one step. -/
  order : (a.steps.map (·.node)).Perm a.graph.nodes
  /-- No decision is taken back: at the step of number `k` the variables decided up to it have their
  final colours, and the others have none yet. -/
  final : ∀ k step, a.steps[k]? = some step → ∀ u,
    step.colours.get? u = if u ∈ a.decidedBefore (k + 1) then a.graph.colours.get? u else none
  /-- The register of a variable is the one of its colour. -/
  register : ∀ v, a.registers.get? v = (a.graph.colours.get? v).bind fun c => a.file[c]?
  /-- A colour is the least one that is not taken. -/
  least : ∀ k step, a.steps[k]? = some step → ∀ c,
    a.graph.colours.get? step.node = some c
      ↔ c < count ∧ ¬ a.TakenAt k step.node c ∧ ∀ c' < c, a.TakenAt k step.node c'
  /-- A variable is spilled exactly if all colours are taken. -/
  forced : ∀ k step, a.steps[k]? = some step →
    (step.node ∈ a.spilled ↔ ∀ c < count, a.TakenAt k step.node c)
  roomy : ∀ v, a.graph.degree v < count → v ∉ a.spilled

theorem length_file (file : RegisterFile) (blocks : Option Graph) (p : Program) :
  (ofProgram file blocks p).file.length = file.normalize.count.toNat
  := by
  simp [ofProgram, RegisterFile.names]

/-- Every variable is decided by its neighbours that were decided before it. -/
theorem decided {k : Nat} {step : AllocationStep}
    (h : (ofProgram file blocks p).steps[k]? = some step) :
  (ofProgram file blocks p).graph.Decided file.normalize.count.toNat
    (· ∈ (ofProgram file blocks p).decidedBefore k) step.node
  := by
  rw [← length_file file blocks p]
  apply Interference.decided_colour (Program.cover_liveRanges p).distinct h

/-- Every node has its step. -/
theorem exists_step {v : Text} (h : v ∈ (ofProgram file blocks p).graph.nodes) :
  ∃ (k : Nat) (step : AllocationStep),
    (ofProgram file blocks p).steps[k]? = some step ∧ step.node = v
  := by
  obtain ⟨step, hmem, rfl⟩ := List.mem_map.mp ((steps_perm file blocks p).mem_iff.mpr h)
  obtain ⟨k, hk⟩ := List.mem_iff_getElem?.mp hmem
  exact ⟨k, step, hk, rfl⟩

theorem mem_nodes_of_step {k : Nat} {step : AllocationStep}
    (h : (ofProgram file blocks p).steps[k]? = some step) :
  step.node ∈ (ofProgram file blocks p).graph.nodes
  := by
  apply (steps_perm file blocks p).mem_iff.mp
  apply List.mem_map_of_mem (List.mem_of_getElem? h)

/-- Only nodes have a colour, and it is the number of a register. -/
theorem of_get?_colours {v : Text} {c : Nat}
    (h : (ofProgram file blocks p).graph.colours.get? v = some c) :
  v ∈ (ofProgram file blocks p).graph.nodes ∧ c < file.names.length
  := by
  have hnode : v ∈ (ofProgram file blocks p).graph.nodes := by
    by_contra hnot
    rw [graph_nodes, ← (Interference.counted_ofRanges p.liveRanges).2] at hnot
    have hkept : (ofProgram file blocks p).graph.colours.get? v
        = (Interference.ofRanges p.liveRanges).colours.get? v :=
      Interference.get?_colourFrom_of_notMem hnot
    rw [h, Interference.colours_ofRanges] at hkept
    cases hkept
  obtain ⟨k, step, hstep, rfl⟩ := exists_step hnode
  use hnode
  have hlt := (((decided hstep).colour c).mp h).1
  rwa [← length_file file blocks p] at hlt

/-- At every step the variables decided up to it have their final colours. -/
theorem colours_step {k : Nat} {step : AllocationStep}
    (h : (ofProgram file blocks p).steps[k]? = some step) (u : Text) :
  step.colours.get? u
    = if u ∈ (ofProgram file blocks p).decidedBefore (k + 1)
      then (ofProgram file blocks p).graph.colours.get? u else none
  := by
  have hnodes := (Interference.counted_ofRanges p.liveRanges).2
  have hnodup := (Program.cover_liveRanges p).distinct
  rw [← hnodes] at hnodup
  rw [Interference.colours_colourFrom hnodup (Interference.uncoloured_ofRanges _) h]
  by_cases hu : u ∈ (Interference.ofRanges p.liveRanges).nodes
  · simp only [hu, not_true_eq_false, false_or]
    rfl
  · have hkept : (ofProgram file blocks p).graph.colours.get? u = none := by
      by_contra hcolour
      obtain ⟨c, hc⟩ := Option.ne_none_iff_exists'.mp hcolour
      rw [hnodes, ← graph_nodes file blocks] at hu
      apply hu (of_get?_colours hc).1
    rw [hkept, if_pos (.inl hu), ite_self]
    apply hkept

/-- The register of a variable's colour. -/
def registerOf? (a : Allocation) (v : Text) : Option Text :=
  (a.graph.colours.get? v).bind fun c => a.file[c]?

theorem registers_eq (file : RegisterFile) (blocks : Option Graph) (p : Program) :
  (ofProgram file blocks p).registers
    = .ofList ((ofProgram file blocks p).graph.nodes.filterMap fun name =>
        ((ofProgram file blocks p).registerOf? name).map (name, ·))
  := rfl

theorem spilled_eq (file : RegisterFile) (blocks : Option Graph) (p : Program) :
  (ofProgram file blocks p).spilled
    = (ofProgram file blocks p).graph.nodes.filter fun name =>
        ((ofProgram file blocks p).registerOf? name).isNone
  := rfl

theorem map_fst_filterMap {α β : Type} (f : α → Option β) (xs : List α) :
  (xs.filterMap fun x => (f x).map (x, ·)).map (·.1) = xs.filter fun x => (f x).isSome
  := by
  induction xs with
  | nil => rfl
  | cons x xs ih =>
      cases hx : f x with
      | none => simpa [hx] using ih
      | some y => simpa [hx] using ih

theorem keys_nodup (file : RegisterFile) (blocks : Option Graph) (p : Program) :
  (((ofProgram file blocks p).graph.nodes.filterMap fun name =>
    ((ofProgram file blocks p).registerOf? name).map (name, ·)).map (·.1)).Nodup
  := by
  rw [map_fst_filterMap]
  apply (graph_nodes_nodup file blocks p).filter

/-- The register of a variable is the one of its colour. -/
theorem get?_registers (file : RegisterFile) (blocks : Option Graph) (p : Program) (v : Text) :
  (ofProgram file blocks p).registers.get? v = (ofProgram file blocks p).registerOf? v
  := by
  apply Option.ext
  intro register
  rw [registers_eq, Dict.get?_ofList_iff (keys_nodup file blocks p)]
  constructor
  · intro h
    obtain ⟨name, -, heq⟩ := List.mem_filterMap.mp h
    obtain ⟨_, hregister, heq⟩ := Option.map_eq_some_iff.mp heq
    cases heq
    apply hregister
  · intro h
    obtain ⟨c, hc, -⟩ := Option.bind_eq_some_iff.mp h
    apply List.mem_filterMap.mpr
    use v, (of_get?_colours hc).1
    rw [h]
    rfl

/-- The variables with a register and the spilled ones are the nodes. -/
theorem keys_append_spilled (file : RegisterFile) (blocks : Option Graph) (p : Program) :
  ((ofProgram file blocks p).registers.keys ++ (ofProgram file blocks p).spilled).Perm
    (ofProgram file blocks p).graph.nodes
  := by
  rw [registers_eq, Dict.keys, Dict.entries_ofList (keys_nodup file blocks p), map_fst_filterMap,
    spilled_eq]
  simp only [← Option.not_isSome]
  apply List.filter_append_perm

/-- A node is spilled exactly if it has no colour. -/
theorem mem_spilled_iff {v : Text} :
  v ∈ (ofProgram file blocks p).spilled
    ↔ v ∈ (ofProgram file blocks p).graph.nodes
      ∧ (ofProgram file blocks p).graph.colours.get? v = none
  := by
  rw [spilled_eq, List.mem_filter, Option.isNone_iff_eq_none]
  apply and_congr_right
  intro _
  constructor
  · intro h
    by_contra hcolour
    obtain ⟨c, hc⟩ := Option.ne_none_iff_exists'.mp hcolour
    have hlt := (of_get?_colours hc).2
    have hnone := Option.bind_eq_none_iff.mp h c hc
    change file.names[c]? = none at hnone
    rw [List.getElem?_eq_none_iff] at hnone
    omega
  · intro h
    rw [registerOf?, h]
    rfl

/-- A variable is spilled exactly if its neighbours decided before it have all colours. -/
theorem node_mem_spilled_iff {k : Nat} {step : AllocationStep}
    (h : (ofProgram file blocks p).steps[k]? = some step) :
  step.node ∈ (ofProgram file blocks p).spilled
    ↔ ∀ c < file.normalize.count.toNat, (ofProgram file blocks p).TakenAt k step.node c
  := by
  rw [mem_spilled_iff, and_iff_right (mem_nodes_of_step h)]
  apply (decided h).none

/-- A variable with fewer neighbours than there are registers is never spilled. -/
theorem notMem_spilled_of_degree_lt {v : Text}
    (h : (ofProgram file blocks p).graph.degree v < file.normalize.count.toNat) :
  v ∉ (ofProgram file blocks p).spilled
  := by
  intro hspilled
  obtain ⟨k, step, hstep, rfl⟩ := exists_step (mem_spilled_iff.mp hspilled).1
  have htaken := (node_mem_spilled_iff hstep).mp hspilled
  have hle := Interference.le_degree_of_taken (graph_counted file blocks p) htaken
  omega

/-- Variables whose ranges overlap never have the same register. -/
theorem register_ne_of_overlaps {r s : LiveRange} (hr : r ∈ p.liveRanges) (hs : s ∈ p.liveRanges)
    (hne : r.name ≠ s.name) (hover : r.overlaps s) {register : Text}
    (h : (ofProgram file blocks p).registers.get? r.name = some register) :
  (ofProgram file blocks p).registers.get? s.name ≠ some register
  := by
  apply register_ne_of_edge hne _ h
  rw [graph_edges]
  apply (Interference.mem_edges_iff hne).mpr ⟨r, hr, s, hs, rfl, rfl, hover⟩

/-- Every allocation is greedy for its number of registers. -/
theorem greedy_ofProgram (file : RegisterFile) (blocks : Option Graph) (p : Program) :
  (ofProgram file blocks p).Greedy p file.normalize.count.toNat
  where
  file := length_file file blocks p
  nodes := ⟨graph_nodes file blocks p, graph_nodes_nodup file blocks p⟩
  complete := keys_append_spilled file blocks p
  proper _ hr _ hs hne hover _ := register_ne_of_overlaps hr hs hne hover
  order := steps_perm file blocks p
  final _ _ := colours_step
  register := get?_registers file blocks p
  least _ _ hstep := (decided hstep).colour
  forced _ _ := node_mem_spilled_iff
  roomy _ := notMem_spilled_of_degree_lt

end Allocation

end ThreeAddress

