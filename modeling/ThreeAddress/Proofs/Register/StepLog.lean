import ThreeAddress.Proofs.Register.Colouring

/-!
# The log of an allocation

Taking the first variable of least degree out of a list again and again sorts the list by degree,
and variables of the same degree keep their order.  Every step of the log is the placement of its
variable in the graph that the step before has left.  So the snapshots of the log, read one after
another, replay the colouring, and the registers that the steps name are those of the result.
-/

namespace ThreeAddress

namespace Interference

variable {g : Interference} {file : List Text} {v : Text} {c : Nat}

/-! ### The order of the steps -/

/-- Variables by degree; those of the same degree keep their order. -/
def byDegree (g : Interference) (names : List Text) : List Text :=
  names.mergeSort fun u v => decide (g.degree u ≤ g.degree v)

/-- Whether `u` has a smaller degree than `v`. -/
def isBelow (g : Interference) (v u : Text) : Bool := decide (g.degree u < g.degree v)

theorem mem_byDegree {u : Text} {names : List Text} :
  u ∈ g.byDegree names ↔ u ∈ names
  := List.mem_mergeSort

/-- A list without variables of smaller degree has none of them in front. -/
theorem while_isBelow_of_forall_not {names : List Text} (h : ∀ u ∈ names, ¬ g.isBelow v u) :
  names.takeWhile (g.isBelow v) = [] ∧ names.dropWhile (g.isBelow v) = names
  := by
  cases names with
  | nil => exact ⟨rfl, rfl⟩
  | cons u names =>
      have hhead := h u List.mem_cons_self
      rw [List.takeWhile_cons_of_neg hhead, List.dropWhile_cons_of_neg hhead]
      exact ⟨rfl, rfl⟩

/-- A variable is sorted in behind those of smaller degree and before all others. -/
theorem byDegree_cons (g : Interference) (v : Text) (names : List Text) :
  g.byDegree (v :: names)
    = (g.byDegree names).takeWhile (g.isBelow v) ++ v :: (g.byDegree names).dropWhile (g.isBelow v)
  := by
  have htrans : ∀ a b c : Text, decide (g.degree a ≤ g.degree b) → decide (g.degree b ≤ g.degree c) →
      decide (g.degree a ≤ g.degree c) := by
    intro a b c
    simp only [decide_eq_true_eq]
    apply Nat.le_trans
  have htotal : ∀ a b : Text,
      decide (g.degree a ≤ g.degree b) || decide (g.degree b ≤ g.degree a) := by
    intro a b
    rw [Bool.or_eq_true, decide_eq_true_eq, decide_eq_true_eq]
    apply Nat.le_total
  obtain ⟨before, after, hcons, hrest, hbefore⟩ := List.mergeSort_cons htrans htotal v names
  have hsorted := List.pairwise_mergeSort htrans htotal (v :: names)
  rw [hcons, List.pairwise_append, List.pairwise_cons] at hsorted
  have hless : ∀ u ∈ before, g.isBelow v u := by
    intro u hu
    simpa [isBelow] using hbefore u hu
  have hafter : ∀ u ∈ after, ¬ g.isBelow v u := by
    intro u hu
    simpa [isBelow] using hsorted.2.1.1 u hu
  obtain ⟨htake, hdrop⟩ := while_isBelow_of_forall_not hafter
  rw [byDegree, byDegree, hcons, hrest, List.takeWhile_append_of_pos hless,
    List.dropWhile_append_of_pos hless, htake, hdrop, List.append_nil]

/-- The first variable of least degree comes first. -/
theorem byDegree_append_cons {before after : List Text}
    (hbefore : ∀ u ∈ before, g.degree v < g.degree u)
    (hafter : ∀ u ∈ after, g.degree v ≤ g.degree u) :
  g.byDegree (before ++ v :: after) = v :: g.byDegree (before ++ after)
  := by
  induction before with
  | nil =>
      have hnot : ∀ u ∈ g.byDegree after, ¬ g.isBelow v u := by
        intro u hu
        simpa [isBelow] using hafter u (mem_byDegree.mp hu)
      obtain ⟨htake, hdrop⟩ := while_isBelow_of_forall_not hnot
      rw [List.nil_append, List.nil_append, byDegree_cons, htake, hdrop, List.nil_append]
  | cons u before ih =>
      have hless : g.isBelow u v := by
        simpa [isBelow] using hbefore u List.mem_cons_self
      rw [List.cons_append, byDegree_cons, ih fun w hw => hbefore w (List.mem_cons_of_mem _ hw),
        List.takeWhile_cons_of_pos hless, List.dropWhile_cons_of_pos hless, List.cons_append,
        List.cons_append, byDegree_cons]

/-- The variable of least degree is the first one: those before it have a larger degree, and those
after it none that is smaller. -/
theorem exists_split_leastDegree (g : Interference) (best : Text) (rest : List Text) :
  ∃ before after, best :: rest = before ++ g.leastDegree best rest :: after
    ∧ (∀ u ∈ before, g.degree (g.leastDegree best rest) < g.degree u)
    ∧ ∀ u ∈ after, g.degree (g.leastDegree best rest) ≤ g.degree u
  := by
  induction rest generalizing best with
  | nil =>
      use [], []
      simp [leastDegree]
  | cons w rest ih =>
      rw [leastDegree]
      split
      · next hless =>
        obtain ⟨before, after, hsplit, hbefore, hafter⟩ := ih w
        have hw : w ∈ before ++ g.leastDegree w rest :: after := by
          rw [← hsplit]
          apply List.mem_cons_self
        have hle : g.degree (g.leastDegree w rest) ≤ g.degree w := by
          rw [List.mem_append, List.mem_cons] at hw
          obtain hw | hw | hw := hw
          · apply Nat.le_of_lt (hbefore w hw)
          · rw [← hw]
          · apply hafter w hw
        use best :: before, after
        refine ⟨by rw [hsplit, List.cons_append], ?_, hafter⟩
        intro u hu
        obtain rfl | hu := List.mem_cons.mp hu
        · omega
        · apply hbefore u hu
      · next hge =>
        obtain ⟨before, after, hsplit, hbefore, hafter⟩ := ih best
        cases before with
        | nil =>
            obtain ⟨hbest, rfl⟩ := List.cons.inj hsplit
            use [], w :: rest
            rw [← hbest] at hafter ⊢
            refine ⟨rfl, by simp, ?_⟩
            intro u hu
            obtain rfl | hu := List.mem_cons.mp hu
            · omega
            · apply hafter u hu
        | cons b before =>
            obtain ⟨rfl, hrest⟩ := List.cons.inj hsplit
            have hless := hbefore best List.mem_cons_self
            use best :: w :: before, after
            refine ⟨?_, ?_, hafter⟩
            · rw [List.cons_append, List.cons_append]
              congr 2
            · intro u hu
              rw [List.mem_cons, List.mem_cons] at hu
              obtain rfl | rfl | hu := hu
              · apply hless
              · omega
              · apply hbefore u (List.mem_cons_of_mem _ hu)

theorem byDegree_place (g : Interference) (file : List Text) (v : Text) (names : List Text) :
  (g.place file v).1.byDegree names = g.byDegree names
  := by
  rw [place_colours]
  rfl

/-- A run decides the variables of its work list by degree. -/
theorem map_node_colourFrom_eq (g : Interference) (file : List Text) (index : Nat)
    (work : List Text) :
  (g.colourFrom file index work).2.map (·.node) = g.byDegree work
  := by
  fun_induction colourFrom g file index work with
  | case1 g index => simp [byDegree]
  | case2 g index first rest name g' placement hplace g'' steps htail ih =>
      obtain ⟨before, after, hsplit, hbefore, hafter⟩ := g.exists_split_leastDegree first rest
      have hnot : name ∉ before := by
        intro hmem
        apply Nat.lt_irrefl _ (hbefore name hmem)
      have hg' : g' = (g.place file name).1 := by rw [hplace]
      rw [htail, hg', byDegree_place] at ih
      rw [List.map_cons, ih, hsplit, List.erase_append_right _ hnot, List.erase_cons_head,
        byDegree_append_cons hbefore hafter]

/-! ### The snapshots -/

/-- The colours in the snapshot of the last step, where `start` stands if there is no step. -/
def coloursAfter (start : Dict Nat) (steps : List AllocationStep) : Dict Nat :=
  (steps.getLast?.map (·.colours)).getD start

theorem coloursAfter_cons (start : Dict Nat) (step : AllocationStep)
    (steps : List AllocationStep) :
  coloursAfter start (step :: steps) = coloursAfter step.colours steps
  := by
  rw [coloursAfter, coloursAfter, List.getLast?_cons]
  cases steps.getLast? with
  | none => rfl
  | some last => rfl

/-- The graph with other colours. -/
def withColours (g : Interference) (colours : Dict Nat) : Interference := { g with colours }

@[simp]
theorem colours_withColours (g : Interference) (colours : Dict Nat) :
  (g.withColours colours).colours = colours
  := rfl

/-- Every step of a run is numbered, and it is the placement of its variable in the graph with the
colours of the snapshot before. -/
theorem place_of_step {index : Nat} {work : List Text} {k : Nat} {step : AllocationStep}
    (hstep : (g.colourFrom file index work).2[k]? = some step) :
  step.index = index + k
    ∧ (g.withColours (coloursAfter g.colours ((g.colourFrom file index work).2.take k))).place file
        step.node = (g.withColours step.colours, step.placement)
  := by
  fun_induction colourFrom g file index work generalizing k with
  | case1 g index => cases hstep
  | case2 g index first rest name g' placement hplace g'' steps htail =>
      rename_i ih
      have hg' : g' = g.withColours g'.colours := by
        have h := place_colours g file name
        rwa [hplace] at h
      cases k with
      | zero =>
          cases hstep
          use rfl
          rw [← hg']
          apply hplace
      | succ k =>
          rw [htail] at ih
          obtain ⟨hindex, hsame⟩ := ih hstep
          rw [hg'] at hsame
          use by omega
          rw [List.take_succ_cons, coloursAfter_cons]
          apply hsame

/-- The last snapshot of a run has the colours of its result. -/
theorem coloursAfter_colourFrom (g : Interference) (file : List Text) (index : Nat)
    (work : List Text) :
  coloursAfter g.colours (g.colourFrom file index work).2
    = (g.colourFrom file index work).1.colours
  := by
  fun_induction colourFrom g file index work with
  | case1 g index => rfl
  | case2 g index first rest name g' placement hplace g'' steps htail ih =>
      rw [htail] at ih
      rw [coloursAfter_cons]
      apply ih

/-- A placement that gives a colour inserts it, and names the register of the colour. -/
theorem place_eq_colour {g' : Interference} {register : Text}
    (h : g.place file v = (g', .colour c register)) :
  g'.colours = g.colours.insert v c ∧ file[c]? = some register
  := by
  rw [place] at h
  split at h
  · next d hfree =>
    obtain ⟨rfl, hplacement⟩ := Prod.mk.inj h
    obtain ⟨rfl, rfl⟩ := Placement.colour.inj hplacement
    have hlt := (freeColour?_eq_some_iff.mp hfree).1
    use rfl
    rw [List.getD_eq_getElem?_getD, List.getElem?_eq_getElem hlt, Option.getD_some]
  · cases h

/-- A placement that spills leaves the graph as it is. -/
theorem place_eq_spill {g' : Interference} (h : g.place file v = (g', .spill)) :
  g' = g
  := by
  rw [place] at h
  split at h
  · cases h
  · cases h
    rfl

end Interference

namespace Allocation

variable {file : RegisterFile} {blocks : Option Graph} {p : Program}

/-- The colours given before the step of number `k`: the snapshot of the step before it, and none
before the first step. -/
def coloursBefore (a : Allocation) (k : Nat) : Dict Nat :=
  Interference.coloursAfter ∅ (a.steps.take k)

/-- The log of the allocation `a` replays it. -/
structure Replayed (a : Allocation) : Prop where
  /-- Every variable has its step. -/
  nodes : (a.steps.map (·.node)).Perm a.graph.nodes
  /-- The variables come by degree, and those of the same degree in the order of the graph. -/
  order : a.steps.map (·.node) = a.graph.byDegree a.graph.nodes
  index : ∀ (k : Nat) step, a.steps[k]? = some step → step.index = k
  /-- A step that gives a colour adds it to the snapshot before, where the variable has none. -/
  extended : ∀ (k : Nat) step c register, a.steps[k]? = some step → step.placement = .colour c register →
    (a.coloursBefore k).get? step.node = none
      ∧ step.colours = (a.coloursBefore k).insert step.node c
  /-- A step that spills repeats the snapshot before. -/
  unchanged : ∀ (k : Nat) step, a.steps[k]? = some step → step.placement = .spill →
    step.colours = a.coloursBefore k
  /-- The last snapshot has the colours of the graph. -/
  last : a.coloursBefore a.steps.length = a.graph.colours
  /-- A colour is given with its register, and this is the one that the variable has in the end. -/
  register : ∀ (k : Nat) step c register, a.steps[k]? = some step → step.placement = .colour c register →
    a.file[c]? = some register ∧ a.registers.get? step.node = some register
  /-- A variable whose step spills it is spilled in the end. -/
  spilled : ∀ (k : Nat) step, a.steps[k]? = some step → step.placement = .spill → step.node ∈ a.spilled

theorem steps_eq (file : RegisterFile) (blocks : Option Graph) (p : Program) :
  (ofProgram file blocks p).steps
    = ((Interference.ofRanges p.liveRanges).colour file.names).2
  := rfl

/-- The steps come by degree. -/
theorem map_node_steps (file : RegisterFile) (blocks : Option Graph) (p : Program) :
  (ofProgram file blocks p).steps.map (·.node)
    = (ofProgram file blocks p).graph.byDegree (ofProgram file blocks p).graph.nodes
  := by
  change _ = ((Interference.ofRanges p.liveRanges).colour file.names).1.byDegree
    ((Interference.ofRanges p.liveRanges).colour file.names).1.nodes
  rw [steps_eq, Interference.colour, Interference.map_node_colourFrom_eq,
    Interference.colourFrom_colours]
  rfl

/-- Every step is the placement of its variable among the colours given before. -/
theorem place_of_step {k : Nat} {step : AllocationStep}
    (h : (ofProgram file blocks p).steps[k]? = some step) :
  step.index = k
    ∧ ((Interference.ofRanges p.liveRanges).withColours
          ((ofProgram file blocks p).coloursBefore k)).place file.names step.node
      = ((Interference.ofRanges p.liveRanges).withColours step.colours, step.placement)
  := by
  obtain ⟨hindex, hplace⟩ := Interference.place_of_step h
  rw [Interference.colours_ofRanges] at hplace
  use by omega
  apply hplace

/-- The variable of a step is not one of those decided before. -/
theorem node_notMem_decidedBefore {k : Nat} {step : AllocationStep}
    (h : (ofProgram file blocks p).steps[k]? = some step) :
  step.node ∉ (ofProgram file blocks p).decidedBefore k
  := by
  have hnodup := (steps_perm file blocks p).nodup_iff.mpr (graph_nodes_nodup file blocks p)
  obtain ⟨hlt, rfl⟩ := List.getElem?_eq_some_iff.mp h
  rw [← List.take_append_drop k (ofProgram file blocks p).steps, List.drop_eq_getElem_cons hlt,
    List.map_append, List.map_cons] at hnodup
  intro hmem
  apply (List.nodup_append.mp hnodup).2.2 _ hmem _ List.mem_cons_self rfl

theorem coloursBefore_succ {a : Allocation} {k : Nat} {step : AllocationStep}
    (h : a.steps[k]? = some step) :
  a.coloursBefore (k + 1) = step.colours
  := by
  rw [coloursBefore, Interference.coloursAfter, List.take_add_one, h, Option.toList_some,
    List.getLast?_concat, Option.map_some, Option.getD_some]

/-- The variable of a step has no colour before it. -/
theorem get?_coloursBefore {k : Nat} {step : AllocationStep}
    (h : (ofProgram file blocks p).steps[k]? = some step) :
  ((ofProgram file blocks p).coloursBefore k).get? step.node = none
  := by
  cases k with
  | zero => rfl
  | succ k =>
      have hlt := (List.getElem?_eq_some_iff.mp h).1
      have hlast := List.getElem?_eq_getElem (Nat.lt_of_succ_lt hlt)
      rw [coloursBefore_succ hlast, colours_step hlast, if_neg (node_notMem_decidedBefore h)]

/-- In the end the variable of a step has the colour that its snapshot says. -/
theorem get?_colours_of_step {k : Nat} {step : AllocationStep}
    (h : (ofProgram file blocks p).steps[k]? = some step) :
  (ofProgram file blocks p).graph.colours.get? step.node = step.colours.get? step.node
  := by
  have hmem : step.node ∈ (ofProgram file blocks p).decidedBefore (k + 1) := by
    rw [decidedBefore, List.take_add_one, h, List.map_append]
    simp
  rw [colours_step h, if_pos hmem]

theorem coloursBefore_length (file : RegisterFile) (blocks : Option Graph) (p : Program) :
  (ofProgram file blocks p).coloursBefore (ofProgram file blocks p).steps.length
    = (ofProgram file blocks p).graph.colours
  := by
  rw [coloursBefore, List.take_length]
  have h := (Interference.ofRanges p.liveRanges).coloursAfter_colourFrom file.names 0
    (Interference.ofRanges p.liveRanges).nodes
  rw [Interference.colours_ofRanges] at h
  apply h

/-- A step that gives a colour inserts it into the snapshot before, with the register of its
name. -/
theorem colours_of_colour {k c : Nat} {step : AllocationStep} {register : Text}
    (h : (ofProgram file blocks p).steps[k]? = some step)
    (hcolour : step.placement = .colour c register) :
  step.colours = ((ofProgram file blocks p).coloursBefore k).insert step.node c
    ∧ file.names[c]? = some register
  := by
  have hplace := (place_of_step h).2
  rw [hcolour] at hplace
  simpa using Interference.place_eq_colour hplace

theorem colours_of_spill {k : Nat} {step : AllocationStep}
    (h : (ofProgram file blocks p).steps[k]? = some step) (hspill : step.placement = .spill) :
  step.colours = (ofProgram file blocks p).coloursBefore k
  := by
  have hplace := (place_of_step h).2
  rw [hspill] at hplace
  simpa using congrArg Interference.colours (Interference.place_eq_spill hplace)

/-- The register that a step names is the one that its variable has in the end. -/
theorem register_of_step {k c : Nat} {step : AllocationStep} {register : Text}
    (h : (ofProgram file blocks p).steps[k]? = some step)
    (hcolour : step.placement = .colour c register) :
  (ofProgram file blocks p).registers.get? step.node = some register
  := by
  obtain ⟨hcolours, hregister⟩ := colours_of_colour h hcolour
  have hfinal := get?_colours_of_step h
  rw [hcolours, Dict.get?_insert_self] at hfinal
  rw [get?_registers, registerOf?, hfinal, Option.bind_some]
  apply hregister

/-- The log of every allocation replays it. -/
theorem log_replays (file : RegisterFile) (blocks : Option Graph) (p : Program) :
  (ofProgram file blocks p).Replayed
  where
  nodes := steps_perm file blocks p
  order := map_node_steps file blocks p
  index k step h := (place_of_step h).1
  extended k step c register h hcolour := ⟨get?_coloursBefore h, (colours_of_colour h hcolour).1⟩
  unchanged k step := colours_of_spill
  last := coloursBefore_length file blocks p
  register k step c register h hcolour :=
    ⟨(colours_of_colour h hcolour).2, register_of_step h hcolour⟩
  spilled k step h hspill := by
    rw [mem_spilled_iff, get?_colours_of_step h, colours_of_spill h hspill]
    use mem_nodes_of_step h
    apply get?_coloursBefore h

end Allocation

end ThreeAddress
