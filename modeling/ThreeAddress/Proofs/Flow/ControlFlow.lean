import ThreeAddress.Flow.Check
import ThreeAddress.Proofs.Flow.Blocks

/-!
# Graphs as control flow

`ControlFlow p g` says what it means for the graph `g` to be the control flow of the program `p`:
its blocks are the stretches of `p` between labels and jumps, and its edges lead just where the last
instructions of the blocks lead.  The graph that `Graph.build` makes of a program is its control
flow, and a graph that is the control flow of some program passes the check.
-/

namespace ThreeAddress

namespace Graph

/-- The block that starts at a place. -/
def blockFrom? (g : Graph) (place : Nat) : Option Block :=
  g.blockList.find? (·.start == (place : Int))

/-- Whether an edge leads from the block `b` to the block `t`. -/
def leads (g : Graph) (b t : Block) : Bool :=
  g.edges.any fun e => e.source == b.id && e.target == t.id

/-- The edges that leave the block `b` whose last instruction is `last`, where `next` is the block
after it: a jump leads to the block that starts at its label, a conditional jump falls through to
the next block as well, and every other instruction goes on in the next block. -/
def wantedEdges (p : Program) (g : Graph) (b : Block) (last : Instr) (next : Option Block) :
    List Edge :=
  let target := (p.labelIndex? last.label).bind g.blockFrom?
  let along (tag : Text) (t : Option Block) : List Edge := t.toList.map fun t => ⟨b.id, t.id, tag⟩
  match last.kind with
  | .jump => along [] target
  | .jumpIfFalse | .jumpIfTrue => along last.kind.name target ++ along "fall-through" next
  | _ => along [] next

/-- The remark on the block `b` whose last instruction is `last`: there is one if this is a jump to
a label that does not exist. -/
def wantedDangling (p : Program) (b : Block) (last : Instr) : List DanglingJump :=
  if last.kind.isJump ∧ p.labelIndex? last.label = none then
    [⟨b.id, b.stop, last.label, "jump to undefined label " ++ last.label⟩]
  else []

/-- The graph `g` is the control flow of the program `p`. -/
structure ControlFlow (p : Program) (g : Graph) : Prop where
  /-- The graph tells the length of the program. -/
  size : g.size = p.length
  /-- Blocks are kept under their names, in the order of the program. -/
  entries : g.blocks.entries = g.blockList.map fun b => (b.id, b)
  order : g.order = g.blockList.map (·.id)
  distinct : g.order.Nodup
  /-- A block is named after the place where it starts. -/
  named : ∀ b ∈ g.blockList, b.id = "B" ++ Text.ofInt b.start
  /-- Blocks hold the instructions of the program, every one once. -/
  cover : g.blockList.flatMap (·.instrs) = p
  /-- No block is empty, and every block starts where the blocks before it end. -/
  place : ∀ before b after, g.blockList = before ++ b :: after →
    b.instrs ≠ [] ∧ b.start = ((before.flatMap (·.instrs)).length : Int)
      ∧ b.stop + 1 = b.start + (b.instrs.length : Int)
  /-- In a block only the first instruction can be a label and only the last one a jump. -/
  inner : ∀ b ∈ g.blockList, ∀ n i, b.instrs[n]? = some i →
    (i.kind = .label → n = 0) ∧ (i.kind.isJump → n + 1 = b.instrs.length)
  /-- A block starts at every label that a jump can go to. -/
  labels : ∀ label n, p.labelIndex? label = some n → ∃ t ∈ g.blockList, t.start = n
  /-- The edges and remarks of a block are those that its last instruction asks for. -/
  out : ∀ before b after last, g.blockList = before ++ b :: after → b.instrs.getLast? = some last →
    g.edgesFrom b.id = g.wantedEdges p b last after.head?
      ∧ g.dangling.filter (·.block == b.id) = wantedDangling p b last
  /-- There are no other edges and remarks. -/
  edges : g.edges = g.blockList.flatMap fun b => g.edgesFrom b.id
  dangling : g.dangling = g.blockList.flatMap fun b => g.dangling.filter (·.block == b.id)
  /-- Successors and predecessors are the blocks at the other ends of a block's edges, in the order
  of the program and each once. -/
  succs : ∀ b ∈ g.blockList, b.succs = (g.blockList.filter (g.leads b ·)).map (·.id)
  preds : ∀ b ∈ g.blockList, b.preds = (g.blockList.filter (g.leads · b)).map (·.id)
  /-- The first block is the entry, and it alone is marked so. -/
  entry : g.entry = g.order.headD []
  isEntry : g.blockList.filter (·.isEntry) = g.blockList.take 1
  /-- The exits are the blocks without successors, and these are marked so. -/
  exits : g.exits = (g.blockList.filter (·.succs.isEmpty)).map (·.id)
  isExit : ∀ b ∈ g.blockList, b.isExit = b.succs.isEmpty

/-! ### One equation for each kind of last instruction -/

/-- A kind of instruction is a jump, a conditional jump or neither. -/
theorem kind_cases (k : InstrKind) :
  k = .jump ∨ k.isConditional ∨ k.isJump = false
  := by
  cases k with
  | jump =>
      left
      rfl
  | jumpIfFalse | jumpIfTrue =>
      right
      left
      rfl
  | _ =>
      right
      right
      rfl

theorem isJump_of_isConditional {k : InstrKind} (h : k.isConditional) :
  k.isJump
  := by
  cases k with
  | jumpIfFalse | jumpIfTrue => rfl
  | _ => simp [InstrKind.isConditional] at h

section Kinds

variable {p : Program} {g : Graph} {b : Block} {last : Instr}

theorem exitOf_of_jump {next : Option Nat} (h : last.kind = .jump) :
  exitOf p last next = jumpExit p last []
  := by
  rw [exitOf, h]

theorem exitOf_of_conditional {next : Option Nat} (h : last.kind.isConditional) :
  exitOf p last next
    = { targets := (jumpExit p last last.kind.name).targets ++ next.toList.map (·, fallThrough)
        nowhere := (jumpExit p last last.kind.name).nowhere }
  := by
  cases hk : last.kind with
  | jumpIfFalse | jumpIfTrue => simp [exitOf, hk]
  | _ => simp [hk, InstrKind.isConditional] at h

theorem exitOf_of_not_jump {next : Option Nat} (h : last.kind.isJump = false) :
  exitOf p last next = { targets := next.toList.map (·, []) }
  := by
  cases hk : last.kind with
  | jump | jumpIfFalse | jumpIfTrue => simp [hk, InstrKind.isJump] at h
  | _ => simp [exitOf, hk]

theorem wantedEdges_of_jump {next : Option Block} (h : last.kind = .jump) :
  g.wantedEdges p b last next
    = ((p.labelIndex? last.label).bind g.blockFrom?).toList.map fun t => ⟨b.id, t.id, []⟩
  := by
  rw [wantedEdges, h]

theorem wantedEdges_of_conditional {next : Option Block} (h : last.kind.isConditional) :
  g.wantedEdges p b last next
    = (((p.labelIndex? last.label).bind g.blockFrom?).toList.map
        fun t => ⟨b.id, t.id, last.kind.name⟩)
      ++ next.toList.map fun t => ⟨b.id, t.id, "fall-through"⟩
  := by
  cases hk : last.kind with
  | jumpIfFalse | jumpIfTrue => simp [wantedEdges, hk]
  | _ => simp [hk, InstrKind.isConditional] at h

theorem wantedEdges_of_not_jump {next : Option Block} (h : last.kind.isJump = false) :
  g.wantedEdges p b last next = next.toList.map fun t => ⟨b.id, t.id, []⟩
  := by
  cases hk : last.kind with
  | jump | jumpIfFalse | jumpIfTrue => simp [hk, InstrKind.isJump] at h
  | _ => simp [wantedEdges, hk]

/-- A wanted edge leaves its block, and leads to a block of the graph or to the next one. -/
theorem mem_wantedEdges {next : Option Block} {e : Edge} (h : e ∈ g.wantedEdges p b last next) :
  ∃ t, (t ∈ g.blockList ∨ next = some t) ∧ e.source = b.id ∧ e.target = t.id
  := by
  have htarget : ∀ tag : Text, e ∈ ((p.labelIndex? last.label).bind g.blockFrom?).toList.map
        (fun t => (⟨b.id, t.id, tag⟩ : Edge)) →
      ∃ t, (t ∈ g.blockList ∨ next = some t) ∧ e.source = b.id ∧ e.target = t.id := by
    intro tag hmem
    obtain ⟨t, ht, rfl⟩ := List.mem_map.mp hmem
    obtain ⟨n, -, ht⟩ := Option.bind_eq_some_iff.mp (Option.mem_toList.mp ht)
    use t
    use .inl (List.mem_of_find?_eq_some ht)
  have hnext : ∀ tag : Text, e ∈ next.toList.map (fun t => (⟨b.id, t.id, tag⟩ : Edge)) →
      ∃ t, (t ∈ g.blockList ∨ next = some t) ∧ e.source = b.id ∧ e.target = t.id := by
    intro tag hmem
    obtain ⟨t, ht, rfl⟩ := List.mem_map.mp hmem
    use t
    use .inr (Option.mem_toList.mp ht)
  obtain hkind | hkind | hkind := kind_cases last.kind
  · rw [wantedEdges_of_jump hkind] at h
    apply htarget _ h
  · rw [wantedEdges_of_conditional hkind] at h
    obtain h | h := List.mem_append.mp h
    · apply htarget _ h
    · apply hnext _ h
  · rw [wantedEdges_of_not_jump hkind] at h
    apply hnext _ h

end Kinds

/-! ### The control flow of a built graph -/

section Build

variable {p : Program}

/-- The instructions of stretches that go without a gap from `start` to the end are those of the
program from `start` on. -/
theorem Tiles.flatMap_instrs {start : Nat} {cs : List (Nat × Nat)}
    (h : Tiles p.length start cs) :
  (cs.map (blockOf p)).flatMap (·.instrs) = p.drop start
  := by
  induction h with
  | done => simp
  | @next a b rest le tail ih =>
      rw [List.map_cons, List.flatMap_cons, ih, blockOf_instrs]
      have hdrop : p.drop (b + 1) = (p.drop a).drop (b + 1 - a) := by
        rw [List.drop_drop]
        congr 1
        omega
      rw [hdrop, List.take_append_drop]

/-- The instructions of the stretches before one are as many as the places before it. -/
theorem Tiles.length_flatMap_instrs {start a b : Nat} {before after : List (Nat × Nat)}
    (h : Tiles p.length start (before ++ (a, b) :: after)) :
  start + ((before.map (blockOf p)).flatMap (·.instrs)).length = a
  := by
  induction before generalizing start with
  | nil =>
      cases h with
      | next le tail => rfl
  | cons c before ih =>
      cases h with
      | @next _ d _ le tail =>
          have hrest := ih tail
          have hlt := tail.split.2.1
          have hsize := tail.stop_lt
          rw [List.map_cons, List.flatMap_cons, List.length_append, blockOf_instrs,
            List.length_take, List.length_drop]
          dsimp only
          omega

theorem length_blockOf_instrs {a b : Nat} (h : (a, b) ∈ cuts p) :
  (blockOf p (a, b)).instrs.length = b + 1 - a
  := by
  have := stop_lt_of_mem_cuts h
  rw [blockOf_instrs, List.length_take, List.length_drop]
  dsimp only
  omega

theorem getElem?_blockOf_instrs {a b n : Nat} {i : Instr}
    (h : (blockOf p (a, b)).instrs[n]? = some i) :
  p[a + n]? = some i ∧ a + n ≤ b
  := by
  rw [blockOf_instrs, List.getElem?_take] at h
  split at h
  · next hn =>
    rw [List.getElem?_drop] at h
    use h
    dsimp only at hn
    omega
  · simp at h

/-- A decomposition of the list of blocks is one of the list of stretches. -/
theorem split_blockList {before after : List Block} {b : Block}
    (h : (build p).blockList = before ++ b :: after) :
  ∃ cs c ds, cuts p = cs ++ c :: ds ∧ before = cs.map (blockOf p) ∧ b = blockOf p c
    ∧ after = ds.map (blockOf p)
  := by
  rw [blockList_build] at h
  obtain ⟨cs, rest, hcuts, hbefore, hrest⟩ := List.map_eq_append_iff.mp h
  obtain ⟨c, ds, rfl, hc, hds⟩ := List.map_eq_cons_iff.mp hrest
  use cs, c, ds, hcuts
  use hbefore.symm, hc.symm
  apply hds.symm

/-- The block at a leader is the block of the stretch that begins there. -/
theorem blockFrom?_build {n : Nat} (h : IsLeader p n) :
  ((build p).blockFrom? n).map (·.id) = some (blockName n)
  := by
  rw [← mem_leaders, ← map_fst_cuts] at h
  obtain ⟨c, hc, rfl⟩ := List.mem_map.mp h
  have hsome : ((build p).blockList.find? (·.start == ((c.1 : Nat) : Int))).isSome := by
    rw [List.find?_isSome, blockList_build]
    use blockOf p c
    simp [List.mem_map_of_mem hc]
  obtain ⟨t, ht⟩ := Option.isSome_iff_exists.mp hsome
  have hmem := List.mem_of_find?_eq_some ht
  rw [blockList_build] at hmem
  obtain ⟨d, -, rfl⟩ := List.mem_map.mp hmem
  have hstart : d.1 = c.1 := by
    have hbeq := List.find?_some ht
    simp only [blockOf_start, beq_iff_eq] at hbeq
    omega
  rw [blockFrom?, ht, Option.map_some, blockOf_id, hstart]

/-- The block after a stretch starts at the place after it. -/
theorem head?_after {cs ds : List (Nat × Nat)} {a b : Nat} (h : cuts p = cs ++ (a, b) :: ds) :
  (ds.map (blockOf p)).head?.map (·.id) = (nextPlace p b).map blockName
  := by
  have htiles := tiles_cuts p
  rw [h] at htiles
  rw [nextPlace, ← htiles.split.2.2.head?_eq]
  cases ds with
  | nil => rfl
  | cons d ds => rfl

/-- Edges along the block at the place `n`, if there is one, are the edges to its name. -/
theorem toList_map_edge {t : Option Block} {n : Option Nat} (source tag : Text)
    (h : t.map (·.id) = n.map blockName) :
  (t.toList.map fun t => (⟨source, t.id, tag⟩ : Edge))
    = (n.toList.map (·, tag)).map fun q => ⟨source, blockName q.1, q.2⟩
  := by
  cases t with
  | none =>
      cases n with
      | none => rfl
      | some n => simp at h
  | some t =>
      cases n with
      | none => simp at h
      | some n =>
          simp only [Option.map_some, Option.some.injEq] at h
          simp [h]

theorem jumpExit_targets (p : Program) (i : Instr) (tag : Text) :
  (jumpExit p i tag).targets = (p.labelIndex? i.label).toList.map (·, tag)
  := by
  rw [jumpExit]
  split
  · next n h => simp [h]
  · next h => simp [h]

theorem jumpExit_nowhere (p : Program) (i : Instr) (tag : Text) :
  (jumpExit p i tag).nowhere = if p.labelIndex? i.label = none then some i.label else none
  := by
  rw [jumpExit]
  split
  · next n h => simp [h]
  · next h => simp [h]

/-- The edges of a stretch are those that its last instruction asks for. -/
theorem edgesOf_eq_wantedEdges {cs ds : List (Nat × Nat)} {a b : Nat} {last : Instr}
    (h : cuts p = cs ++ (a, b) :: ds) (hlast : p[b]? = some last) :
  edgesOf p (a, b)
    = (build p).wantedEdges p (blockOf p (a, b)) last (ds.map (blockOf p)).head?
  := by
  have hnext := head?_after h
  have htarget : ((p.labelIndex? last.label).bind (build p).blockFrom?).map (·.id)
      = (p.labelIndex? last.label).map blockName := by
    cases hlabel : p.labelIndex? last.label with
    | none => rfl
    | some n =>
        rw [Option.bind_some, blockFrom?_build (isLeader_labelIndex? hlabel)]
        rfl
  rw [edgesOf, exitAt, hlast]
  dsimp only
  obtain hkind | hkind | hkind := kind_cases last.kind
  · rw [exitOf_of_jump hkind, wantedEdges_of_jump hkind, jumpExit_targets,
      toList_map_edge _ _ htarget]
    rfl
  · rw [exitOf_of_conditional hkind, wantedEdges_of_conditional hkind, jumpExit_targets,
      toList_map_edge _ _ htarget, toList_map_edge _ _ hnext, List.map_append]
    rfl
  · rw [exitOf_of_not_jump hkind, wantedEdges_of_not_jump hkind, toList_map_edge _ _ hnext]
    rfl

/-- The remark on a stretch is the one that its last instruction asks for. -/
theorem danglingOf_eq_wantedDangling {a b : Nat} {last : Instr} (hlast : p[b]? = some last) :
  danglingOf p (a, b) = wantedDangling p (blockOf p (a, b)) last
  := by
  rw [danglingOf, exitAt, hlast, wantedDangling]
  dsimp only
  obtain hkind | hkind | hkind := kind_cases last.kind
  · rw [exitOf_of_jump hkind, jumpExit_nowhere, hkind]
    by_cases hlabel : p.labelIndex? last.label = none
    · simp [hlabel, InstrKind.isJump]
    · simp [hlabel]
  · have hjump := isJump_of_isConditional hkind
    rw [exitOf_of_conditional hkind, jumpExit_nowhere]
    by_cases hlabel : p.labelIndex? last.label = none
    · simp [hlabel, hjump]
    · simp [hlabel]
  · rw [exitOf_of_not_jump hkind]
    simp [hkind]

theorem leads_build {c d : Nat × Nat} (hc : c ∈ cuts p) :
  (build p).leads (blockOf p c) (blockOf p d)
    = decide (d.1 ∈ (exitAt p c.2).targets.map (·.1))
  := by
  rw [Bool.eq_iff_iff, decide_eq_true_iff]
  apply edge_build_iff hc

theorem leads_eq_joined (c d : Nat × Nat) :
  (build p).leads (blockOf p c) (blockOf p d) = joined ((cuts p).flatMap (edgesOf p)) c d
  := by
  rw [leads, build_edges]
  rfl

theorem succs_blockOf (c : Nat × Nat) :
  (blockOf p c).succs
    = (((cuts p).map (blockOf p)).filter ((build p).leads (blockOf p c) ·)).map (·.id)
  := by
  rw [List.filter_map, List.map_map]
  simp only [Function.comp_def, leads_eq_joined]
  rfl

theorem preds_blockOf (c : Nat × Nat) :
  (blockOf p c).preds
    = (((cuts p).map (blockOf p)).filter ((build p).leads · (blockOf p c))).map (·.id)
  := by
  rw [List.filter_map, List.map_map]
  simp only [Function.comp_def, leads_eq_joined]
  rfl

/-- The entry is the first stretch of a program, if it has one. -/
theorem filter_isEntry (p : Program) :
  (cuts p).filter ((·.isEntry) ∘ blockOf p) = (cuts p).take 1
  := by
  have htiles := tiles_cuts p
  cases hcuts : cuts p with
  | nil => rfl
  | cons c cs =>
      obtain ⟨a, b⟩ := c
      rw [hcuts] at htiles
      obtain ⟨rfl, -, tail⟩ := htiles.cons_inv
      have hlater : cs.filter ((·.isEntry) ∘ blockOf p) = [] := by
        rw [List.filter_eq_nil_iff]
        rintro ⟨d, e⟩ hd
        obtain ⟨before, after, rfl⟩ := List.append_of_mem hd
        have hpos := tail.split.1
        have hne : ¬ d = 0 := by omega
        simp [blockOf, hne]
      rw [List.filter_cons, hlater]
      rfl

/-- The graph that is built of a program is its control flow. -/
theorem controlFlow_build (p : Program) :
  ControlFlow p (build p)
  where
  size := by
    rw [build_eq]
    rfl
  entries := by
    rw [build_entries, blockList_build, List.map_map]
    rfl
  order := by
    rw [build_order, blockList_build, List.map_map]
    rfl
  distinct := by
    rw [build_order]
    apply blockNames_nodup
  named := by
    intro b hb
    rw [blockList_build] at hb
    obtain ⟨c, -, rfl⟩ := List.mem_map.mp hb
    rfl
  cover := by
    rw [blockList_build]
    apply (tiles_cuts p).flatMap_instrs
  place := by
    intro before b after h
    obtain ⟨cs, ⟨a, b⟩, ds, hcuts, rfl, rfl, rfl⟩ := split_blockList h
    have hmem : (a, b) ∈ cuts p := by simp [hcuts]
    have hle := start_le_stop_of_mem_cuts hmem
    have hlength := length_blockOf_instrs hmem
    have htiles := tiles_cuts p
    rw [hcuts] at htiles
    have hstart := htiles.length_flatMap_instrs
    constructor
    · intro hnil
      rw [hnil, List.length_nil] at hlength
      omega
    · rw [hlength, blockOf_start, blockOf_stop]
      constructor
      · omega
      · omega
  inner := by
    intro b hb n i hi
    rw [blockList_build] at hb
    obtain ⟨⟨a, b⟩, hmem, rfl⟩ := List.mem_map.mp hb
    obtain ⟨hp, hle⟩ := getElem?_blockOf_instrs hi
    constructor
    · intro hkind
      have := label_in_cut hmem hp (by omega) hle hkind
      omega
    · intro hkind
      have := jump_in_cut hmem hp (by omega) hle hkind
      rw [length_blockOf_instrs hmem]
      omega
  labels := by
    intro label n h
    have hleader := isLeader_labelIndex? h
    rw [← mem_leaders, ← map_fst_cuts] at hleader
    obtain ⟨c, hc, rfl⟩ := List.mem_map.mp hleader
    use blockOf p c
    rw [blockList_build]
    use List.mem_map_of_mem hc
    rfl
  out := by
    intro before b after last h hlast
    obtain ⟨cs, ⟨a, b⟩, ds, hcuts, rfl, rfl, rfl⟩ := split_blockList h
    have hmem : (a, b) ∈ cuts p := by simp [hcuts]
    replace hlast : p[b]? = some last := (getLast?_plainBlock hmem).symm.trans hlast
    rw [blockOf_id, edgesFrom_build hmem, filter_dangling_build hmem]
    constructor
    · apply edgesOf_eq_wantedEdges hcuts hlast
    · apply danglingOf_eq_wantedDangling hlast
  edges := by
    rw [blockList_build, List.flatMap_map]
    nth_rewrite 1 [build_edges]
    apply List.flatMap_congr
    intro c hc
    symm
    apply edgesFrom_build hc
  dangling := by
    rw [blockList_build, List.flatMap_map]
    nth_rewrite 1 [build_dangling]
    apply List.flatMap_congr
    intro c hc
    symm
    apply filter_dangling_build hc
  succs := by
    intro b hb
    rw [blockList_build] at hb ⊢
    obtain ⟨c, -, rfl⟩ := List.mem_map.mp hb
    apply succs_blockOf c
  preds := by
    intro b hb
    rw [blockList_build] at hb ⊢
    obtain ⟨c, -, rfl⟩ := List.mem_map.mp hb
    apply preds_blockOf c
  entry := by
    cases p with
    | nil => rfl
    | cons i q =>
        obtain ⟨c, cs, hcuts, hzero⟩ := exists_cuts_cons (List.cons_ne_nil i q)
        rw [build_order, hcuts, List.map_cons, List.headD_cons, hzero,
          build_entry (List.cons_ne_nil i q)]
  isEntry := by
    rw [blockList_build, ← List.map_take, List.filter_map, filter_isEntry]
  exits := by
    rw [blockList_build, build_eq, List.filter_map, List.map_map]
    rfl
  isExit := by
    intro b hb
    rw [blockList_build] at hb
    obtain ⟨c, -, rfl⟩ := List.mem_map.mp hb
    rfl

end Build

/-! ### The check -/

namespace ControlFlow

variable {p : Program} {g : Graph}

/-- A block is found under its name. -/
theorem block?_id (h : ControlFlow p g) {b : Block} (hb : b ∈ g.blockList) :
  g.block? b.id = some b
  := by
  apply Dict.get?_of_mem
  · have hkeys : g.blocks.keys = g.order := by
      rw [Dict.keys, h.entries, h.order, List.map_map]
      rfl
    rw [hkeys]
    apply h.distinct
  · rw [h.entries]
    apply List.mem_map.mpr
    use b, hb

/-- The ranges of the blocks are in order. -/
theorem rangeProblems_eq_nil (h : ControlFlow p g) (before after : List Block)
    (hsplit : g.blockList = before ++ after) :
  g.rangeProblems (before.flatMap (·.instrs)).length (after.map (·.id)) = []
  := by
  induction after generalizing before with
  | nil =>
      have hcover := h.cover
      rw [hsplit, List.append_nil] at hcover
      rw [hcover, List.map_nil, rangeProblems, h.size, if_pos rfl]
  | cons b after ih =>
      have hmem : b ∈ g.blockList := by simp [hsplit]
      obtain ⟨hne, hstart, hstop⟩ := h.place before b after hsplit
      have hpos : 0 < b.instrs.length := List.length_pos_iff.mpr hne
      have hnext : b.stop + 1 = (((before ++ [b]).flatMap (·.instrs)).length : Int) := by
        rw [List.flatMap_append, List.length_append, List.flatMap_cons, List.flatMap_nil,
          List.append_nil, hstop, hstart]
        omega
      rw [List.map_cons, rangeProblems, h.block?_id hmem]
      dsimp only
      rw [if_pos hstart, if_neg (by omega), hnext, ih (before ++ [b]) (by simp [hsplit])]
      rfl

/-- Both ends of an edge are blocks. -/
theorem exists_ends (h : ControlFlow p g) {e : Edge} (he : e ∈ g.edges) :
  ∃ b ∈ g.blockList, ∃ t ∈ g.blockList, e.source = b.id ∧ e.target = t.id
  := by
  rw [h.edges] at he
  obtain ⟨b, hb, he⟩ := List.mem_flatMap.mp he
  obtain ⟨before, after, hsplit⟩ := List.append_of_mem hb
  obtain ⟨hne, -, -⟩ := h.place before b after hsplit
  rw [(h.out before b after _ hsplit (List.getLast?_eq_some_getLast hne)).1] at he
  obtain ⟨t, ht, hsource, htarget⟩ := mem_wantedEdges he
  use b, hb, t
  use by
    obtain ht | ht := ht
    · apply ht
    · rw [hsplit]
      simp [List.mem_of_head? ht]

/-- Both ends of an edge are blocks, and they know of each other. -/
theorem edgeProblems_eq_nil (h : ControlFlow p g) {e : Edge} (he : e ∈ g.edges) :
  g.edgeProblems e = []
  := by
  obtain ⟨b, hb, t, ht, hsource, htarget⟩ := h.exists_ends he
  have hleads : g.leads b t := by
    apply List.any_eq_true.mpr
    use e, he
    simp [hsource, htarget]
  have hsuccs : t.id ∈ b.succs := by
    rw [h.succs b hb]
    apply List.mem_map_of_mem (List.mem_filter.mpr ⟨ht, hleads⟩)
  have hpreds : b.id ∈ t.preds := by
    rw [h.preds t ht]
    apply List.mem_map_of_mem (List.mem_filter.mpr ⟨hb, hleads⟩)
  rw [edgeProblems, hsource, htarget, h.block?_id hb, h.block?_id ht]
  simp [hsuccs, hpreds]

/-- A jump finds no block exactly if its label does not exist. -/
theorem isNone_target (h : ControlFlow p g) (label : Text) :
  ((p.labelIndex? label).bind g.blockFrom?).isNone = (p.labelIndex? label).isNone
  := by
  cases hlabel : p.labelIndex? label with
  | none => rfl
  | some n =>
      obtain ⟨t, ht, hstart⟩ := h.labels label n hlabel
      have hsome : (g.blockFrom? n).isSome := by
        rw [blockFrom?, List.find?_isSome]
        use t, ht
        simp [hstart]
      rw [Option.bind_some, Option.isNone_some, ← Option.not_isSome, hsome]
      rfl

/-- The wanted edges are as many as the check asks for. -/
theorem length_wantedEdges (h : ControlFlow p g) (b : Block) (last : Instr) (next : Option Block) :
  ((g.wantedEdges p b last next).length : Int)
    = edgesWanted last.kind next.isNone (last.kind.isJump && (p.labelIndex? last.label).isNone)
  := by
  rw [← h.isNone_target]
  obtain hkind | hkind | hkind := kind_cases last.kind
  · rw [wantedEdges_of_jump hkind, List.length_map, hkind]
    cases (p.labelIndex? last.label).bind g.blockFrom? with
    | none => rfl
    | some t => rfl
  · rw [wantedEdges_of_conditional hkind, List.length_append, List.length_map, List.length_map,
      edgesWanted, if_pos hkind, isJump_of_isConditional hkind]
    cases (p.labelIndex? last.label).bind g.blockFrom? with
    | none =>
        cases next with
        | none => rfl
        | some t => rfl
    | some t =>
        cases next with
        | none => rfl
        | some t => rfl
  · have hcond : last.kind.isConditional = false := by
      cases hc : last.kind.isConditional with
      | false => rfl
      | true => simp [isJump_of_isConditional hc] at hkind
    rw [wantedEdges_of_not_jump hkind, List.length_map, edgesWanted, hcond, hkind]
    cases next with
    | none => rfl
    | some t => rfl

/-- A block is remarked upon exactly if its last instruction is a jump to a label that does not
exist. -/
theorem any_dangling {b : Block} {last : Instr}
    (h : g.dangling.filter (·.block == b.id) = wantedDangling p b last) :
  g.dangling.any (·.block == b.id) = (last.kind.isJump && (p.labelIndex? last.label).isNone)
  := by
  have hempty : g.dangling.any (·.block == b.id)
      = !(g.dangling.filter (·.block == b.id)).isEmpty := by
    rw [Bool.eq_iff_iff]
    simp
  rw [hempty, h, wantedDangling]
  cases last.kind.isJump with
  | false => simp
  | true =>
      cases p.labelIndex? last.label with
      | none => simp
      | some n => simp

/-- Every block has as many edges as its last instruction asks for, and is marked as an exit if it
has no successors. -/
theorem allExitProblems_eq_nil (h : ControlFlow p g) (before after : List Block)
    (hsplit : g.blockList = before ++ after) :
  g.allExitProblems (after.map (·.id)) = []
  := by
  induction after generalizing before with
  | nil => rfl
  | cons b after ih =>
      have hmem : b ∈ g.blockList := by simp [hsplit]
      obtain ⟨hne, -, -⟩ := h.place before b after hsplit
      have hlast := List.getLast?_eq_some_getLast hne
      obtain ⟨hedges, hdangling⟩ := h.out before b after _ hsplit hlast
      have hend : (after.map (·.id)).isEmpty = after.head?.isNone := by
        cases after with
        | nil => rfl
        | cons t after => rfl
      rw [List.map_cons, allExitProblems, ih (before ++ [b]) (by simp [hsplit]), List.append_nil,
        exitProblems, h.block?_id hmem]
      dsimp only
      rw [hlast]
      dsimp only
      rw [hedges, any_dangling hdangling, h.length_wantedEdges, hend, if_pos rfl,
        if_pos (h.isExit b hmem)]
      rfl

/-- The first block is the only entry. -/
theorem entryProblems?_eq_nil (h : ControlFlow p g) :
  g.entryProblems? = some []
  := by
  have hfilter : g.blocks.entries.filter (·.2.isEntry)
      = (g.blockList.take 1).map fun b => (b.id, b) := by
    rw [h.entries, List.filter_map, ← h.isEntry]
    rfl
  have hentry := h.entry
  rw [entryProblems?, hfilter]
  cases hblocks : g.blockList with
  | nil =>
      have hempty : g.blocks.entries = [] := by simp [h.entries, hblocks]
      have hnone : g.entry = [] := by simp [hentry, h.order, hblocks]
      simp [hempty, hnone]
  | cons b bs =>
      have hne : g.blocks.entries.isEmpty = false := by simp [h.entries, hblocks]
      have horder : g.order = b.id :: bs.map (·.id) := by simp [h.order, hblocks]
      rw [horder, List.headD_cons] at hentry
      simp [hne, horder, hentry]

/-- A graph that is the control flow of a program passes the check. -/
theorem check?_eq_none (h : ControlFlow p g) :
  g.check? = some none
  := by
  have hrange : g.rangeProblems 0 g.order = [] := by
    rw [h.order]
    apply h.rangeProblems_eq_nil [] g.blockList rfl
  have hcount : g.order.length = g.blocks.size := by
    rw [h.order, Dict.size, h.entries, List.length_map, List.length_map]
  have hedges : g.edges.flatMap g.edgeProblems = [] := by
    rw [List.flatMap_eq_nil_iff]
    intro e he
    apply h.edgeProblems_eq_nil he
  have hexits : g.allExitProblems g.order = [] := by
    rw [h.order]
    apply h.allExitProblems_eq_nil [] g.blockList rfl
  rw [check?, problems?, h.entryProblems?_eq_nil, Option.map_some, Option.map_some, hrange, hedges,
    hexits, if_pos hcount]
  rfl

end ControlFlow

/-- The graph that is built of a program is exactly its control flow, and passes the check. -/
theorem build_is_control_flow (p : Program) :
  ControlFlow p (build p) ∧ (build p).check? = some none
  := by
  constructor
  · apply controlFlow_build
  · apply (controlFlow_build p).check?_eq_none

end Graph

end ThreeAddress
