import ThreeAddress.Proofs.Register.Exactness
import ThreeAddress.Proofs.Register.StepLog

/-!
# Register pressure

Variables whose ranges share a place have different colours, so at most as many of them as there are
registers are kept in registers.  If the ranges of all variables overlap pairwise, every variable
has the same degree.  Then the variables are decided in the order in which they occur first, and
each of them finds just the colours taken that were given before it: the first variables get the
registers one after the other, and the rest is spilled.
-/

namespace ThreeAddress

/-- Ranges that share a place overlap. -/
theorem LiveRange.overlaps_of_contains {r s : LiveRange} {n : Int} (hr : r.Contains n)
    (hs : s.Contains n) :
  r.overlaps s
  := by
  have hle : s.start ≤ r.stop ∧ r.start ≤ s.stop := ⟨Int.le_trans hs.1 hr.2, Int.le_trans hr.1 hs.2⟩
  simpa [overlaps] using hle

namespace Allocation

variable {file : RegisterFile} {blocks : Option Graph} {p : Program} {u v : Text}

/-! ### Ranges through one place -/

/-- Variables whose ranges overlap have different colours. -/
theorem eq_of_colours_eq {r s : LiveRange} (hr : r ∈ p.liveRanges) (hs : s ∈ p.liveRanges)
    (hover : r.overlaps s) {c : Nat}
    (hrc : (ofProgram file blocks p).graph.colours.get? r.name = some c)
    (hsc : (ofProgram file blocks p).graph.colours.get? s.name = some c) :
  r = s
  := by
  apply List.inj_on_of_nodup_map (Program.cover_liveRanges p).distinct hr hs
  by_contra hne
  have hedge : ⟨r.name, s.name⟩ ∈ (ofProgram file blocks p).graph.edges := by
    rw [graph_edges]
    apply (Interference.mem_edges_iff hne).mpr ⟨r, hr, s, hs, rfl, rfl, hover⟩
  apply (graph_coloured file blocks p).proper r.name s.name c hne hedge hrc hsc

/-- A variable that is not spilled has the colour of a register. -/
theorem exists_colour_of_notMem_spilled (hv : v ∈ (ofProgram file blocks p).graph.nodes)
    (h : v ∉ (ofProgram file blocks p).spilled) :
  ∃ c < file.normalize.count.toNat, (ofProgram file blocks p).graph.colours.get? v = some c
  := by
  rw [mem_spilled_iff, and_iff_right hv] at h
  obtain ⟨c, hc⟩ := Option.ne_none_iff_exists'.mp h
  have hlt := (of_get?_colours hc).2
  rw [← length_file file blocks p]
  use c, hlt

/-- Of variables whose ranges overlap, at most as many as there are registers are not spilled. -/
theorem length_le_of_not_spilled {rs : List LiveRange} (hnodup : rs.Nodup)
    (hmem : ∀ r ∈ rs, r ∈ p.liveRanges) (hover : ∀ r ∈ rs, ∀ s ∈ rs, r.overlaps s)
    (hkept : ∀ r ∈ rs, r.name ∉ (ofProgram file blocks p).spilled) :
  rs.length ≤ file.normalize.count.toNat
  := by
  have hcolour : ∀ r ∈ rs, ∃ c < file.normalize.count.toNat,
      (ofProgram file blocks p).graph.colours.get? r.name = some c := by
    intro r hr
    apply exists_colour_of_notMem_spilled _ (hkept r hr)
    rw [graph_nodes]
    apply List.mem_map_of_mem (hmem r hr)
  let colours := rs.map fun r => (ofProgram file blocks p).graph.colours.get? r.name
  have hdistinct : colours.Nodup := by
    apply List.Nodup.map_on _ hnodup
    intro r hr s hs heq
    obtain ⟨c, -, hc⟩ := hcolour r hr
    apply eq_of_colours_eq (hmem r hr) (hmem s hs) (hover r hr s hs) hc (heq.symm.trans hc)
  have hsubset : colours ⊆ (List.range file.normalize.count.toNat).map some := by
    intro d hd
    obtain ⟨r, hr, rfl⟩ := List.mem_map.mp hd
    obtain ⟨c, hlt, hc⟩ := hcolour r hr
    rw [hc]
    apply List.mem_map_of_mem (List.mem_range.mpr hlt)
  calc
    rs.length = colours.length := List.length_map _ |>.symm
    _ ≤ ((List.range file.normalize.count.toNat).map some).length :=
      (List.subperm_of_subset hdistinct hsubset).length_le
    _ = file.normalize.count.toNat := by rw [List.length_map, List.length_range]

/-- Of variables whose ranges share a place, those beyond the number of registers are spilled. -/
theorem length_sub_le_spilled {rs : List LiveRange} {n : Int} (hnodup : rs.Nodup)
    (hmem : ∀ r ∈ rs, r ∈ p.liveRanges ∧ r.Contains n) :
  rs.length - file.normalize.count.toNat
    ≤ (rs.filter fun r => decide (r.name ∈ (ofProgram file blocks p).spilled)).length
  := by
  let isSpilled (r : LiveRange) : Bool := decide (r.name ∈ (ofProgram file blocks p).spilled)
  have hkept : (rs.filter fun r => !isSpilled r).length ≤ file.normalize.count.toNat := by
    apply length_le_of_not_spilled (hnodup.filter _)
    · intro r hr
      apply (hmem r (List.mem_filter.mp hr).1).1
    · intro r hr s hs
      have hr' := (hmem r (List.mem_filter.mp hr).1).2
      have hs' := (hmem s (List.mem_filter.mp hs).1).2
      apply LiveRange.overlaps_of_contains hr' hs'
    · intro r hr
      simpa [isSpilled] using (List.mem_filter.mp hr).2
  have hsplit := (List.filter_append_perm isSpilled rs).length_eq
  rw [List.length_append] at hsplit
  change _ ≤ (rs.filter isSpilled).length
  omega

/-! ### Ranges that all overlap -/

/-- Every two variables of the graph have an edge. -/
def Complete (a : Allocation) : Prop :=
  ∀ u ∈ a.graph.nodes, ∀ v ∈ a.graph.nodes, u ≠ v → ⟨u, v⟩ ∈ a.graph.edges

theorem complete_of_overlaps
    (hover : ∀ r ∈ p.liveRanges, ∀ s ∈ p.liveRanges, r ≠ s → r.overlaps s) :
  (ofProgram file blocks p).Complete
  := by
  intro u hu v hv hne
  rw [graph_nodes] at hu hv
  obtain ⟨r, hr, rfl⟩ := List.mem_map.mp hu
  obtain ⟨s, hs, rfl⟩ := List.mem_map.mp hv
  have hrs : r ≠ s := fun heq => hne (congrArg _ heq)
  rw [graph_edges]
  apply (Interference.mem_edges_iff hne).mpr ⟨r, hr, s, hs, rfl, rfl, hover r hr s hs hrs⟩

theorem neighbours_eq (file : RegisterFile) (blocks : Option Graph) (p : Program) (v : Text) :
  (ofProgram file blocks p).graph.neighbours v
    = (Interference.ofRanges p.liveRanges).neighbours v
  := Interference.neighbours_colourFrom _ _ _ _ _

/-- In a complete graph the neighbours of a variable are all other variables. -/
theorem neighbours_perm_erase (h : (ofProgram file blocks p).Complete)
    (hv : v ∈ (ofProgram file blocks p).graph.nodes) :
  ((ofProgram file blocks p).graph.neighbours v).Perm
    ((ofProgram file blocks p).graph.nodes.erase v)
  := by
  have hnodup := graph_nodes_nodup file blocks p
  have hdistinct := (Program.cover_liveRanges p).distinct
  rw [neighbours_eq, List.perm_ext_iff_of_nodup
    (Interference.neighbours_ofRanges_nodup hdistinct v) (hnodup.erase v)]
  intro u
  rw [hnodup.mem_erase_iff, (Interference.neighbours_ofRanges_perm hdistinct v).mem_iff,
    List.mem_filter, decide_eq_true_eq, ← graph_edges file blocks,
    (Interference.counted_ofRanges _).2, ← graph_nodes file blocks]
  constructor
  · rintro ⟨hu, hedge⟩
    rw [graph_edges, Interference.mem_edges_ofRanges_iff hdistinct] at hedge
    exact ⟨hedge.1.symm, hu⟩
  · rintro ⟨hne, hu⟩
    exact ⟨hu, h v hv u hu hne.symm⟩

/-- In a complete graph all variables have the same degree, so they are decided in the order in
which they occur first. -/
theorem map_node_steps_of_complete (h : (ofProgram file blocks p).Complete) :
  (ofProgram file blocks p).steps.map (·.node) = (ofProgram file blocks p).graph.nodes
  := by
  have hdegree : ∀ v ∈ (ofProgram file blocks p).graph.nodes,
      (ofProgram file blocks p).graph.degree v
        = (ofProgram file blocks p).graph.nodes.length - 1 := by
    intro v hv
    rw [(graph_counted file blocks p).2, (neighbours_perm_erase h hv).length_eq,
      List.length_erase_of_mem hv]
  rw [map_node_steps]
  apply List.mergeSort_of_pairwise
  apply List.pairwise_of_forall_mem_list
  intro u hu v hv
  rw [decide_eq_true_eq, hdegree u hu, hdegree v hv]

theorem decidedBefore_of_complete (h : (ofProgram file blocks p).Complete) (k : Nat) :
  (ofProgram file blocks p).decidedBefore k = (ofProgram file blocks p).graph.nodes.take k
  := by
  rw [decidedBefore, List.map_take, map_node_steps_of_complete h]

/-- If every variable before the one of number `k` has its own number as colour, as far as there are
registers, then the colours taken for the variable of number `k` are the numbers below `k`. -/
theorem taken_iff_of_complete (h : (ofProgram file blocks p).Complete) {k : Nat}
    (hbefore : ∀ j < k, ∀ u, (ofProgram file blocks p).graph.nodes[j]? = some u →
      (ofProgram file blocks p).graph.colours.get? u
        = if j < file.normalize.count.toNat then some j else none)
    (hv : (ofProgram file blocks p).graph.nodes[k]? = some v) (c : Nat) :
  (ofProgram file blocks p).TakenAt k v c ↔ c < k ∧ c < file.normalize.count.toNat
  := by
  have hnodup := graph_nodes_nodup file blocks p
  have hlt := (List.getElem?_eq_some_iff.mp hv).1
  rw [TakenAt, decidedBefore_of_complete h]
  constructor
  · rintro ⟨u, -, hu, hc⟩
    obtain ⟨j, hj, rfl⟩ := List.mem_take_iff_getElem.mp hu
    have hjk : j < k := by omega
    rw [hbefore j hjk _ (List.getElem?_eq_getElem (by omega)), Option.ite_none_right_eq_some] at hc
    obtain ⟨hcount, hjc⟩ := hc
    obtain rfl := Option.some.inj hjc
    exact ⟨hjk, hcount⟩
  · rintro ⟨hck, hcount⟩
    have hclt := Nat.lt_trans hck hlt
    have hc := List.getElem?_eq_getElem hclt
    have hne : (ofProgram file blocks p).graph.nodes[c] ≠ v := by
      intro heq
      rw [heq, ← hv, List.getElem?_inj hclt hnodup] at hc
      omega
    refine ⟨_, ?_, List.mem_take_iff_getElem.mpr ⟨c, by omega, rfl⟩, ?_⟩
    · rw [(neighbours_perm_erase h (List.mem_of_getElem? hv)).mem_iff, hnodup.mem_erase_iff]
      use hne
      apply List.getElem_mem
    · rw [hbefore c hck _ hc, if_pos hcount]

/-- Among the variables of a complete graph the one of number `k` gets the colour `k`, if there are
so many registers. -/
theorem get?_colours_of_complete (h : (ofProgram file blocks p).Complete) {k : Nat}
    (hv : (ofProgram file blocks p).graph.nodes[k]? = some v) :
  (ofProgram file blocks p).graph.colours.get? v
    = if k < file.normalize.count.toNat then some k else none
  := by
  induction k using Nat.strong_induction_on generalizing v with
  | _ k ih =>
      have htaken := taken_iff_of_complete h (fun j hj u hu => ih j hj hu) hv
      obtain ⟨step, hstep, rfl⟩ : ∃ step, (ofProgram file blocks p).steps[k]? = some step
          ∧ step.node = v := by
        rw [← map_node_steps_of_complete h, List.getElem?_map] at hv
        apply Option.map_eq_some_iff.mp hv
      split
      · next hcount =>
        apply ((decided hstep).colour k).mpr
        refine ⟨hcount, ?_, ?_⟩
        · intro htaken'
          have := (htaken k).mp htaken'
          omega
        · intro c hc
          apply (htaken c).mpr ⟨hc, Nat.lt_trans hc hcount⟩
      · next hcount =>
        apply (decided hstep).none.mpr
        intro c hc
        apply (htaken c).mpr ⟨by omega, hc⟩

/-- The register of number `k` is that of the variable of number `k`. -/
theorem get?_registers_of_complete (h : (ofProgram file blocks p).Complete) {register : Text} :
  (ofProgram file blocks p).registers.get? v = some register
    ↔ ∃ k : Nat, (ofProgram file blocks p).graph.nodes[k]? = some v ∧ file.names[k]? = some register
  := by
  rw [get?_registers, registerOf?, Option.bind_eq_some_iff]
  constructor
  · rintro ⟨c, hc, hregister⟩
    obtain ⟨k, hk⟩ := List.mem_iff_getElem?.mp (of_get?_colours hc).1
    rw [get?_colours_of_complete h hk, Option.ite_none_right_eq_some] at hc
    obtain rfl := Option.some.inj hc.2
    exact ⟨k, hk, hregister⟩
  · rintro ⟨k, hk, hregister⟩
    have hlt := (List.getElem?_eq_some_iff.mp hregister).1
    use k
    rw [get?_colours_of_complete h hk, if_pos (by simpa [RegisterFile.names] using hlt)]
    use rfl
    apply hregister

/-- The variables beyond the number of registers are spilled. -/
theorem spilled_of_complete (h : (ofProgram file blocks p).Complete) :
  (ofProgram file blocks p).spilled
    = (ofProgram file blocks p).graph.nodes.drop file.normalize.count.toNat
  := by
  have hspilled : ∀ {k v}, (ofProgram file blocks p).graph.nodes[k]? = some v →
      ((ofProgram file blocks p).registerOf? v).isNone = decide (file.normalize.count.toNat ≤ k) := by
    intro k v hv
    rw [registerOf?, get?_colours_of_complete h hv]
    split
    · next hlt =>
      have hregister : k < (ofProgram file blocks p).file.length := by
        rwa [length_file]
      rw [Option.bind_some, List.getElem?_eq_getElem hregister, Option.isNone_some, eq_comm,
        decide_eq_false_iff_not]
      omega
    · next hge =>
      rw [Option.bind_none, Option.isNone_none, eq_comm, decide_eq_true_eq]
      omega
  rw [spilled_eq]
  conv =>
    lhs
    rw [← List.take_append_drop file.normalize.count.toNat (ofProgram file blocks p).graph.nodes]
  rw [List.filter_append, List.filter_eq_nil_iff.mpr, List.filter_eq_self.mpr, List.nil_append]
  · intro v hv
    obtain ⟨k, hk, rfl⟩ := List.mem_drop_iff_getElem.mp hv
    rw [hspilled (List.getElem?_eq_getElem _), decide_eq_true_eq]
    omega
  · intro v hv
    obtain ⟨k, hk, rfl⟩ := List.mem_take_iff_getElem.mp hv
    rw [hspilled (List.getElem?_eq_getElem (by omega)), decide_eq_true_eq]
    omega

/-- Of variables whose ranges share a place, at least those beyond the number of registers are
spilled.  If the ranges of all variables overlap, the first variables get the registers in turn and
exactly the others are spilled. -/
theorem spills_match_pressure (file : RegisterFile) (blocks : Option Graph) (p : Program) :
  (∀ (rs : List LiveRange) (n : Int), rs.Nodup → (∀ r ∈ rs, r ∈ p.liveRanges ∧ r.Contains n) →
      rs.length - file.normalize.count.toNat
        ≤ (rs.filter fun r => decide (r.name ∈ (ofProgram file blocks p).spilled)).length)
    ∧ ((∀ r ∈ p.liveRanges, ∀ s ∈ p.liveRanges, r ≠ s → r.overlaps s) →
      (∀ v register, (ofProgram file blocks p).registers.get? v = some register
        ↔ ∃ k : Nat, (p.liveRanges.map (·.name))[k]? = some v ∧ file.names[k]? = some register)
      ∧ (ofProgram file blocks p).spilled
        = (p.liveRanges.map (·.name)).drop file.normalize.count.toNat)
  := by
  constructor
  · intro rs n hnodup hmem
    apply length_sub_le_spilled hnodup hmem
  · intro hover
    have hcomplete : (ofProgram file blocks p).Complete := complete_of_overlaps hover
    rw [← graph_nodes file blocks]
    constructor
    · intro v register
      apply get?_registers_of_complete hcomplete
    · apply spilled_of_complete hcomplete

/-- Nine variables that are written one after the other and then read one after the other. -/
def nineNames : List Text := ["a", "b", "c", "d", "e", "f", "g", "h", "i"]

def nineLive : Program :=
  (nineNames.map fun v => { kind := .assign, target := .var v, source := .literal .number "1" })
    ++ nineNames.map fun v => { kind := .print, source := .var v }

/-- When the last of the nine variables is written all of them are live, and it alone is spilled. -/
theorem nineLive_spills_last :
  nineLive.liveRanges.length = 9 ∧ (∀ r ∈ nineLive.liveRanges, r.Contains 8)
    ∧ 1 ≤ (nineLive.liveRanges.filter fun r =>
        decide (r.name ∈ (ofProgram {} none nineLive).spilled)).length
    ∧ (ofProgram {} none nineLive).registers.get? "h" = some "r7"
    ∧ (ofProgram {} none nineLive).spilled = ["i"]
  := by
  have hlength : nineLive.liveRanges.length = 9 := by decide +kernel
  have hnodup : nineLive.liveRanges.Nodup := by decide +kernel
  have hcontains : ∀ r ∈ nineLive.liveRanges, r.start ≤ 8 ∧ 8 ≤ r.stop := by decide +kernel
  have hover : ∀ r ∈ nineLive.liveRanges, ∀ s ∈ nineLive.liveRanges, r ≠ s → r.overlaps s := by
    intro r hr s hs _
    apply LiveRange.overlaps_of_contains (hcontains r hr) (hcontains s hs)
  obtain ⟨hleast, hexact⟩ := spills_match_pressure {} none nineLive
  obtain ⟨hregisters, hspilled⟩ := hexact hover
  refine ⟨hlength, hcontains, ?_, ?_, ?_⟩
  · have h := hleast nineLive.liveRanges 8 hnodup fun r hr => ⟨hr, hcontains r hr⟩
    rw [hlength] at h
    apply h
  · apply (hregisters "h" "r7").mpr
    use 7
    decide +kernel
  · rw [hspilled]
    decide +kernel

end Allocation

end ThreeAddress
