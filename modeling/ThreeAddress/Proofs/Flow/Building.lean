import Mathlib.Tactic.Common
import ThreeAddress.Proofs.Code.Labels
import ThreeAddress.Proofs.Dict
import ThreeAddress.Proofs.Flow.Leaders
import ThreeAddress.Proofs.Text.Numeral

/-!
# Building a graph

The passes that build the graph of a program find every block that they look for.  Between two steps
the blocks are told by the edges added so far: a block lists the blocks at the other ends of its
edges in the order of the program, each once.  What the passes leave behind is therefore determined
by the stretches of the program and by where control goes from their last instructions.
-/

namespace ThreeAddress

namespace Graph

/-! ### Exits of stretches -/

/-- Where control goes from a block: places of blocks with the labels of the edges, and the label of
a jump that leads nowhere. -/
structure Exit where
  targets : List (Nat × Text) := []
  nowhere : Option Text := none
deriving Repr

/-- The way of a jump. -/
def jumpExit (p : Program) (i : Instr) (edgeLabel : Text) : Exit :=
  match p.labelIndex? i.label with
  | some place => { targets := [(place, edgeLabel)] }
  | none => { nowhere := some i.label }

/-- Where control goes after the instruction `last` of a block, where `next` is the place of the
block after it. -/
def exitOf (p : Program) (last : Instr) (next : Option Nat) : Exit :=
  match last.kind with
  | .jump => jumpExit p last []
  | .jumpIfFalse | .jumpIfTrue =>
    let e := jumpExit p last last.kind.name
    { e with targets := e.targets ++ next.toList.map (·, fallThrough) }
  | _ => { targets := next.toList.map (·, []) }

/-- The place of the block after a stretch that ends at `b`. -/
def nextPlace (p : Program) (b : Nat) : Option Nat :=
  if b + 1 < p.length then some (b + 1) else none

/-- Where control goes after the instruction at place `b`. -/
def exitAt (p : Program) (b : Nat) : Exit :=
  match p[b]? with
  | some last => exitOf p last (nextPlace p b)
  | none => {}

theorem stop_lt_of_mem_cuts {p : Program} {a b : Nat} (h : (a, b) ∈ cuts p) :
  b < p.length
  := by
  obtain ⟨before, after, hsplit⟩ := List.append_of_mem h
  have htiles := tiles_cuts p
  rw [hsplit] at htiles
  apply htiles.stop_lt

theorem start_le_stop_of_mem_cuts {p : Program} {a b : Nat} (h : (a, b) ∈ cuts p) :
  a ≤ b
  := by
  obtain ⟨before, after, hsplit⟩ := List.append_of_mem h
  have htiles := tiles_cuts p
  rw [hsplit] at htiles
  apply htiles.split.2.1

/-- The place after a stretch is a leader, unless the program ends there. -/
theorem isLeader_nextPlace {p : Program} {a b n : Nat} (h : (a, b) ∈ cuts p)
    (hn : nextPlace p b = some n) :
  IsLeader p n
  := by
  obtain ⟨before, after, hsplit⟩ := List.append_of_mem h
  have htiles := tiles_cuts p
  rw [hsplit] at htiles
  have hhead := htiles.split.2.2.head?_eq
  rw [← nextPlace, hn] at hhead
  obtain ⟨c, hc, rfl⟩ := Option.map_eq_some_iff.mp hhead
  rw [← mem_leaders, ← map_fst_cuts, hsplit]
  apply List.mem_map_of_mem
  simp [List.mem_of_head? hc]

/-- The place of a label is a leader. -/
theorem isLeader_labelIndex? {p : Program} {label : Text} {n : Nat}
    (h : p.labelIndex? label = some n) :
  IsLeader p n
  := by
  obtain ⟨⟨i, hi, hkind, -⟩, -⟩ := Program.labelIndex?_eq_some_iff.mp h
  apply isLeader_of_label hi hkind

theorem mem_jumpExit {p : Program} {i : Instr} {label tag : Text} {n : Nat} :
  (n, tag) ∈ (jumpExit p i label).targets ↔ p.labelIndex? i.label = some n ∧ tag = label
  := by
  rw [jumpExit]
  split
  · next m h => simp [h, eq_comm]
  · next h => simp [h]

/-- The exit of a stretch leads to leaders only. -/
theorem isLeader_of_mem_targets {p : Program} {a b n : Nat} {tag : Text} (h : (a, b) ∈ cuts p)
    (hn : (n, tag) ∈ (exitAt p b).targets) :
  IsLeader p n
  := by
  have hnext : ∀ label : Text, (n, tag) ∈ (nextPlace p b).toList.map (·, label) → IsLeader p n := by
    intro label hmem
    obtain ⟨m, hm, heq⟩ := List.mem_map.mp hmem
    obtain ⟨rfl, -⟩ := Prod.mk.inj heq
    apply isLeader_nextPlace h (Option.mem_toList.mp hm)
  rw [exitAt, List.getElem?_eq_getElem (stop_lt_of_mem_cuts h)] at hn
  dsimp only [exitOf] at hn
  split at hn
  · apply isLeader_labelIndex? (mem_jumpExit.mp hn).1
  · obtain hn | hn := List.mem_append.mp hn
    · apply isLeader_labelIndex? (mem_jumpExit.mp hn).1
    · apply hnext _ hn
  · obtain hn | hn := List.mem_append.mp hn
    · apply isLeader_labelIndex? (mem_jumpExit.mp hn).1
    · apply hnext _ hn
  · apply hnext _ hn

/-! ### Names -/

theorem blockName_injective {m n : Nat} (h : blockName m = blockName n) :
  m = n
  := Text.append_ofNat_injective _ h

theorem starts_nodup (p : Program) :
  ((cuts p).map (·.1)).Nodup
  := by
  rw [map_fst_cuts]
  apply (leaders_pairwise p).imp
  intro a b hab
  apply Nat.ne_of_lt hab

/-- Stretches that begin at the same place are the same. -/
theorem cuts_inj {p : Program} {c d : Nat × Nat} (hc : c ∈ cuts p) (hd : d ∈ cuts p)
    (h : c.1 = d.1) :
  c = d
  := List.inj_on_of_nodup_map (starts_nodup p) hc hd h

theorem blockNames_nodup (p : Program) :
  ((cuts p).map fun c => blockName c.1).Nodup
  := by
  apply (starts_nodup p).of_map.map_on
  intro c hc d hd h
  apply cuts_inj hc hd (blockName_injective h)

/-- Stretches stand in the order of their starts. -/
theorem cuts_pairwise (p : Program) :
  (cuts p).Pairwise fun c d => c.1 < d.1
  := by
  rw [← List.pairwise_map, map_fst_cuts]
  apply leaders_pairwise

theorem placeIn_blockName (n : Nat) :
  placeIn (blockName n) = n
  := by
  change (Text.toNat? (Text.ofNat n)).getD 0 = n
  rw [Text.toNat?_ofNat]
  rfl

/-- Where exactly the names before number `n` have a negative distance, the search finds `n`.  It
keeps `n` between the two bounds. -/
theorem searchOrder?_eq {distance? : Text → Option Int} {order : List Text} {n low high : Nat}
    (hentry : ∀ i < high, ∃ d, order[i]?.bind distance? = some d ∧ (d < 0 ↔ i < n))
    (hlow : low ≤ n) (hhigh : n ≤ high) :
  searchOrder? distance? order low high = some n
  := by
  fun_induction searchOrder? with
  | case1 low high hlt middle hnone =>
      obtain ⟨d, hd, -⟩ := hentry middle (by omega)
      rw [hd] at hnone
      cases hnone
  | case2 low high hlt middle distance hsome hneg ih =>
      obtain ⟨d, hd, hiff⟩ := hentry middle (by omega)
      obtain rfl : d = distance := Option.some.inj (hd.symm.trans hsome)
      have := hiff.mp hneg
      apply ih hentry (by omega) hhigh
  | case3 low high hlt middle distance hsome hneg ih =>
      obtain ⟨d, hd, hiff⟩ := hentry middle (by omega)
      obtain rfl : d = distance := Option.some.inj (hd.symm.trans hsome)
      have := mt hiff.mpr hneg
      have hbelow : ∀ i < middle, ∃ d, order[i]?.bind distance? = some d ∧ (d < 0 ↔ i < n) := by
        intro i hi
        apply hentry i (by omega)
      apply ih hbelow hlow (by omega)
  | case4 low high hge =>
      congr 1
      omega

/-- Among names of stretches, the search finds the first one at a distance that is not negative,
where none behind it is at a negative one. -/
theorem searchOrder?_append {distance? : Text → Option Int} {before after : List (Nat × Nat)}
    {distance : Nat × Nat → Int}
    (hdistance : ∀ c ∈ before ++ after, distance? (blockName c.1) = some (distance c))
    (hbefore : ∀ c ∈ before, distance c < 0) (hafter : ∀ c ∈ after, 0 ≤ distance c) :
  let names := (before ++ after).map fun c => blockName c.1
  searchOrder? distance? names 0 names.length = some before.length
  := by
  intro names
  apply searchOrder?_eq
  · intro i hi
    rw [List.length_map] at hi
    use distance (before ++ after)[i]
    rw [List.getElem?_map, List.getElem?_eq_getElem hi, Option.map_some, Option.bind_some,
      hdistance _ (List.getElem_mem hi)]
    use rfl
    by_cases h : i < before.length
    · rw [List.getElem_append_left h]
      exact iff_of_true (hbefore _ (List.getElem_mem h)) h
    · rw [Nat.not_lt] at h
      rw [List.getElem_append_right h]
      exact iff_of_false (Int.not_lt.mpr (hafter _ (List.getElem_mem _))) (Nat.not_lt.mpr h)
  · exact Nat.zero_le _
  · rw [List.length_map, List.length_append]
    exact Nat.le_add_right _ _

/-- The name of one of some ordered stretches, inserted among the names of a part of them. -/
theorem insertName?_eq {cs : List (Nat × Nat)} (hsorted : cs.Pairwise fun c d => c.1 < d.1)
    {c : Nat × Nat} (hc : c ∈ cs) (f : Nat × Nat → Bool) :
  insertName? ((cs.filter f).map fun d => blockName d.1) (blockName c.1)
    = some ((cs.filter fun d => f d || d == c).map fun d => blockName d.1)
  := by
  obtain ⟨before, after, rfl⟩ := List.append_of_mem hc
  obtain ⟨-, hrest, hacross⟩ := List.pairwise_append.mp hsorted
  have hbefore : ∀ d ∈ before, d.1 < c.1 := fun d hd => hacross d hd c List.mem_cons_self
  have hafter := (List.pairwise_cons.mp hrest).1
  have hother : ∀ ds : List (Nat × Nat), (∀ d ∈ ds, d.1 ≠ c.1) →
      ds.filter (fun d => f d || d == c) = ds.filter f := by
    intro ds hds
    apply List.filter_congr
    intro d hd
    have hne : d ≠ c := fun h => hds d hd (congrArg Prod.fst h)
    rw [beq_false_of_ne hne, Bool.or_false]
  have hfront : ∀ d ∈ before.filter f, d.1 < c.1 := by
    intro d hd
    exact hbefore d (List.mem_filter.mp hd).1
  have hback : ∀ d ∈ (c :: after).filter f, c.1 ≤ d.1 := by
    intro d hd
    obtain rfl | hd := List.mem_cons.mp (List.mem_filter.mp hd).1
    · exact Nat.le_refl _
    · exact Nat.le_of_lt (hafter d hd)
  let names := (before.filter f ++ (c :: after).filter f).map fun d => blockName d.1
  have hsearch : searchOrder? (fun other => some ((placeIn other : Int) - c.1)) names 0 names.length
      = some (before.filter f).length := by
    apply searchOrder?_append
    · intro d _
      rw [placeIn_blockName]
    · intro d hd
      exact Int.sub_neg_of_lt (Int.ofNat_lt.mpr (hfront d hd))
    · intro d hd
      exact Int.sub_nonneg_of_le (Int.ofNat_le.mpr (hback d hd))
  rw [List.filter_append, List.filter_append, hother before fun d hd => Nat.ne_of_lt (hbefore d hd),
    List.filter_cons_of_pos (p := fun d => f d || d == c) (by simp),
    hother after fun d hd => Nat.ne_of_gt (hafter d hd)]
  rw [insertName?, placeIn_blockName, hsearch, Option.bind_eq_bind, Option.bind_some]
  congr 1
  rw [List.map_append, List.map_append, List.getElem?_append_right (by simp), List.length_map,
    Nat.sub_self]
  cases hf : f c with
  | true =>
      rw [List.filter_cons_of_pos hf, List.map_cons, List.getElem?_cons_zero, Option.map_some,
        placeIn_blockName, if_pos (by simp)]
  | false =>
      rw [List.filter_cons_of_neg (by simp [hf]), if_neg, List.take_left' (by simp),
        List.drop_left' (by simp)]
      · rfl
      · rw [List.getElem?_map, Option.map_map, ← List.head?_eq_getElem?]
        intro h
        obtain ⟨d, hd, hzero⟩ := Option.map_eq_some_iff.mp h
        have hlt := hafter d (List.mem_filter.mp (List.mem_of_head? hd)).1
        simp only [Function.comp_apply, placeIn_blockName] at hzero
        omega

/-! ### Graphs with the blocks of a program -/

section Blocks

variable {p : Program} {f : Nat × Nat → Block} {c d : Nat × Nat}

/-- A block for every stretch of a program, under its name. -/
def blocksBy (p : Program) (f : Nat × Nat → Block) : Dict Block where
  entries := (cuts p).map fun c => (blockName c.1, f c)

theorem keys_blocksBy :
  (blocksBy p f).keys = (cuts p).map fun c => blockName c.1
  := by
  rw [Dict.keys, blocksBy, List.map_map]
  rfl

theorem get?_blocksBy (hc : c ∈ cuts p) :
  (blocksBy p f).get? (blockName c.1) = some (f c)
  := by
  apply Dict.get?_of_mem
  · rw [keys_blocksBy]
    apply blockNames_nodup
  · exact List.mem_map_of_mem hc

theorem blocksBy_congr {f' : Nat × Nat → Block} (h : ∀ c ∈ cuts p, f c = f' c) :
  blocksBy p f = blocksBy p f'
  := by
  rw [blocksBy, blocksBy, List.map_congr_left]
  intro c hc
  rw [h c hc]

/-- To change the block of one stretch is to give every stretch its new block. -/
theorem blocksBy_update {f' : Nat × Nat → Block} {b : Block} (hself : b = f' c)
    (hother : ∀ a ∈ cuts p, a ≠ c → f a = f' a) :
  blocksBy p (Function.update f c b) = blocksBy p f'
  := by
  apply blocksBy_congr
  intro a ha
  by_cases h : a = c
  · rw [h, Function.update_self, hself]
  · rw [Function.update_of_ne h, hother a ha h]

theorem insert_blocksBy (hc : c ∈ cuts p) (b : Block) :
  (blocksBy p f).insert (blockName c.1) b = blocksBy p (Function.update f c b)
  := by
  have hcontains : (blocksBy p f).contains (blockName c.1) = true := by
    rw [Dict.contains_eq_isSome, get?_blocksBy hc]
    rfl
  rw [Dict.insert, if_pos hcontains, blocksBy, blocksBy, List.map_map, List.map_congr_left]
  intro d hd
  dsimp only [Function.comp_apply]
  by_cases h : d = c
  · subst h
    rw [if_pos (beq_self_eq_true _), Function.update_self]
  · have hne : blockName d.1 ≠ blockName c.1 := by
      intro hname
      exact h (cuts_inj hd hc (blockName_injective hname))
    rw [if_neg (by simpa using hne), Function.update_of_ne h]

theorem update?_blocksBy {g : Graph} (hg : g.blocks = blocksBy p f) (hc : c ∈ cuts p)
    {change : Block → Option Block} {b : Block} (hb : change (f c) = some b) :
  g.update? (blockName c.1) change
    = some { g with blocks := blocksBy p (Function.update f c b) }
  := by
  rw [update?, block?, hg, get?_blocksBy hc, Option.bind_eq_bind, Option.bind_some, hb,
    Option.bind_some, insert_blocksBy hc]
  rfl

end Blocks

/-! ### Adding edges -/

/-- Whether an edge leads from the block of one stretch to that of another. -/
def joined (edges : List Edge) (c d : Nat × Nat) : Bool :=
  edges.any fun e => e.source == blockName c.1 && e.target == blockName d.1

/-- The names of the blocks to which edges lead from the block of a stretch. -/
def succsOf (p : Program) (edges : List Edge) (c : Nat × Nat) : List Text :=
  ((cuts p).filter (joined edges c)).map fun d => blockName d.1

/-- The names of the blocks from which edges lead to the block of a stretch. -/
def predsOf (p : Program) (edges : List Edge) (c : Nat × Nat) : List Text :=
  ((cuts p).filter (joined edges · c)).map fun d => blockName d.1

/-- The block of a stretch, where the edges are given that their targets know, and those that their
sources know. -/
def linkedBlock (p : Program) (into outOf : List Edge) (c : Nat × Nat) : Block :=
  { plainBlock p c with preds := predsOf p into c, succs := succsOf p outOf c }

/-- The graph between two steps, where the edges and remarks added so far are given. -/
def linked (p : Program) (edges : List Edge) (dangling : List DanglingJump) : Graph where
  blocks := blocksBy p (linkedBlock p edges edges)
  order := (cuts p).map fun c => blockName c.1
  edges := edges
  dangling := dangling
  size := p.length

section Edges

variable {p : Program} {edges : List Edge} {dangling : List DanglingJump} {c d : Nat × Nat}

theorem blockName_beq (hc : c ∈ cuts p) (hd : d ∈ cuts p) :
  (blockName c.1 == blockName d.1) = (c == d)
  := by
  rw [Bool.eq_iff_iff, beq_iff_eq, beq_iff_eq]
  constructor
  · intro h
    exact cuts_inj hc hd (blockName_injective h)
  · rintro rfl
    rfl

theorem joined_concat (hc : c ∈ cuts p) (hd : d ∈ cuts p) (label : Text) {a b : Nat × Nat}
    (ha : a ∈ cuts p) (hb : b ∈ cuts p) :
  joined (edges ++ [⟨blockName c.1, blockName d.1, label⟩]) a b
    = (joined edges a b || (a == c && b == d))
  := by
  rw [joined, List.any_append, joined, List.any_cons, List.any_nil, Bool.or_false,
    blockName_beq hc ha, blockName_beq hd hb, BEq.comm (a := c), BEq.comm (a := d)]

/-- A new edge adds its target to the successors of its source. -/
theorem insertName?_succsOf (hc : c ∈ cuts p) (hd : d ∈ cuts p) (label : Text) :
  insertName? (succsOf p edges c) (blockName d.1)
    = some (succsOf p (edges ++ [⟨blockName c.1, blockName d.1, label⟩]) c)
  := by
  rw [succsOf, insertName?_eq (cuts_pairwise p) hd, succsOf]
  congr 2
  apply List.filter_congr
  intro b hb
  rw [joined_concat hc hd label hc hb, beq_self_eq_true, Bool.true_and]

/-- A new edge adds its source to the predecessors of its target. -/
theorem insertName?_predsOf (hc : c ∈ cuts p) (hd : d ∈ cuts p) (label : Text) :
  insertName? (predsOf p edges d) (blockName c.1)
    = some (predsOf p (edges ++ [⟨blockName c.1, blockName d.1, label⟩]) d)
  := by
  rw [predsOf, insertName?_eq (cuts_pairwise p) hc, predsOf]
  congr 2
  apply List.filter_congr
  intro a ha
  rw [joined_concat hc hd label ha hd, beq_self_eq_true, Bool.and_true]

theorem succsOf_concat_of_ne (hc : c ∈ cuts p) (hd : d ∈ cuts p) (label : Text) {a : Nat × Nat}
    (ha : a ∈ cuts p) (hne : a ≠ c) :
  succsOf p (edges ++ [⟨blockName c.1, blockName d.1, label⟩]) a = succsOf p edges a
  := by
  rw [succsOf, succsOf]
  congr 1
  apply List.filter_congr
  intro b hb
  rw [joined_concat hc hd label ha hb, beq_false_of_ne hne, Bool.false_and, Bool.or_false]

theorem predsOf_concat_of_ne (hc : c ∈ cuts p) (hd : d ∈ cuts p) (label : Text) {b : Nat × Nat}
    (hb : b ∈ cuts p) (hne : b ≠ d) :
  predsOf p (edges ++ [⟨blockName c.1, blockName d.1, label⟩]) b = predsOf p edges b
  := by
  rw [predsOf, predsOf]
  congr 1
  apply List.filter_congr
  intro a ha
  rw [joined_concat hc hd label ha hb, beq_false_of_ne hne, Bool.and_false, Bool.or_false]

/-- After an edge was added, the two blocks list each other. -/
theorem addEdge?_linked (hc : c ∈ cuts p) (hd : d ∈ cuts p) (label : Text) :
  (linked p edges dangling).addEdge? ⟨blockName c.1, blockName d.1, label⟩
    = some (linked p (edges ++ [⟨blockName c.1, blockName d.1, label⟩]) dangling)
  := by
  let edges' := edges ++ [⟨blockName c.1, blockName d.1, label⟩]
  have hsource : blocksBy p
        (Function.update (linkedBlock p edges edges) c (linkedBlock p edges edges' c))
      = blocksBy p (linkedBlock p edges edges') := by
    apply blocksBy_update rfl
    intro a ha hne
    rw [linkedBlock, linkedBlock, succsOf_concat_of_ne hc hd label ha hne]
  have htarget : blocksBy p
        (Function.update (linkedBlock p edges edges') d (linkedBlock p edges' edges' d))
      = blocksBy p (linkedBlock p edges' edges') := by
    apply blocksBy_update rfl
    intro b hb hne
    rw [linkedBlock, linkedBlock, predsOf_concat_of_ne hc hd label hb hne]
  rw [addEdge?, update?_blocksBy (b := linkedBlock p edges edges' c) rfl hc (by
    rw [linkedBlock, insertName?_succsOf hc hd label]; rfl), Option.bind_eq_bind, Option.bind_some,
    hsource, update?_blocksBy (b := linkedBlock p edges' edges' d) rfl hd (by
    rw [linkedBlock, insertName?_predsOf hc hd label]; rfl), htarget]
  rfl

/-! ### The passes -/

/-- The edges that leave a stretch. -/
def edgesOf (p : Program) (c : Nat × Nat) : List Edge :=
  (exitAt p c.2).targets.map fun t => ⟨blockName c.1, blockName t.1, t.2⟩

/-- The jump of a stretch that leads nowhere. -/
def danglingOf (p : Program) (c : Nat × Nat) : List DanglingJump :=
  (exitAt p c.2).nowhere.toList.map fun label =>
    ⟨blockName c.1, c.2, label, "jump to undefined label " ++ label⟩

/-- The last instruction of a block stands at the end of its stretch. -/
theorem getLast?_plainBlock (hc : c ∈ cuts p) :
  (plainBlock p c).instrs.getLast? = p[c.2]?
  := by
  have hle := start_le_stop_of_mem_cuts hc
  have hlt := stop_lt_of_mem_cuts hc
  rw [plainBlock, List.getLast?_eq_getElem?, List.length_take, List.length_drop, List.getElem?_take,
    List.getElem?_drop, if_pos (by omega)]
  congr 1
  omega

/-- The stretch after a stretch starts at the place after it. -/
theorem head?_after_cut {before after : List (Nat × Nat)} (h : cuts p = before ++ c :: after) :
  after.head?.map (·.1) = nextPlace p c.2
  := by
  obtain ⟨a, b⟩ := c
  have htiles := tiles_cuts p
  rw [h] at htiles
  rw [nextPlace, ← htiles.split.2.2.head?_eq]

/-- A jump adds the edges and remarks of its exit. -/
theorem jump?_linked (hc : c ∈ cuts p) (b : Block) (hid : b.id = blockName c.1)
    (hstop : b.stop = c.2) (last : Instr) (label : Text) :
  (linked p edges dangling).jump? p b last label
    = some (linked p
      (edges ++ (jumpExit p last label).targets.map fun t => ⟨blockName c.1, blockName t.1, t.2⟩)
      (dangling ++ (jumpExit p last label).nowhere.toList.map fun label =>
        ⟨blockName c.1, c.2, label, "jump to undefined label " ++ label⟩))
  := by
  rw [jump?, jumpExit, hid, hstop]
  cases hlabel : p.labelIndex? last.label with
  | none =>
      dsimp only
      rw [List.map_nil, List.append_nil]
      rfl
  | some place =>
      have hleader := isLeader_labelIndex? hlabel
      rw [← mem_leaders, ← map_fst_cuts] at hleader
      obtain ⟨d, hd, rfl⟩ := List.mem_map.mp hleader
      dsimp only
      rw [addEdge?_linked hc hd, Option.toList_none, List.map_nil, List.append_nil]
      rfl

/-- Going on adds the edge to the next block. -/
theorem goOn?_linked (hc : c ∈ cuts p) (b : Block) (hid : b.id = blockName c.1)
    {next : Option (Nat × Nat)} (hnext : ∀ d ∈ next, d ∈ cuts p) (label : Text) :
  (linked p edges dangling).goOn? b (next.map fun d => blockName d.1) label
    = some (linked p (edges ++ ((next.map (·.1)).toList.map (·, label)).map fun t =>
        ⟨blockName c.1, blockName t.1, t.2⟩) dangling)
  := by
  cases next with
  | none =>
      change some (linked p edges dangling) = some (linked p (edges ++ []) dangling)
      rw [List.append_nil]
  | some d =>
      change (linked p edges dangling).addEdge? ⟨b.id, blockName d.1, label⟩ = _
      rw [hid]
      exact addEdge?_linked hc (hnext d rfl) label

/-- Leaving a block adds the edges and the remark of its stretch. -/
theorem leave?_linked {before after : List (Nat × Nat)} (h : cuts p = before ++ c :: after) :
  (linked p edges dangling).leave? p (blockName c.1) (after.head?.map fun d => blockName d.1)
    = some (linked p (edges ++ edgesOf p c) (dangling ++ danglingOf p c))
  := by
  have hc : c ∈ cuts p := by simp [h]
  have hnext : ∀ d ∈ after.head?, d ∈ cuts p := by
    intro d hd
    rw [h]
    exact List.mem_append_right _ (List.mem_cons_of_mem _ (List.mem_of_head? hd))
  obtain ⟨last, hlast⟩ : ∃ last, p[c.2]? = some last :=
    ⟨_, List.getElem?_eq_getElem (stop_lt_of_mem_cuts hc)⟩
  have hblock : (linked p edges dangling).block? (blockName c.1)
      = some (linkedBlock p edges edges c) := get?_blocksBy hc
  have hgetLast : (linkedBlock p edges edges c).instrs.getLast? = some last := by
    rw [← hlast, ← getLast?_plainBlock hc]
    rfl
  rw [leave?, hblock, Option.bind_eq_bind, Option.bind_some, hgetLast, Option.bind_eq_bind,
    Option.bind_some, edgesOf, danglingOf, exitAt, hlast]
  dsimp only
  rw [exitOf, ← head?_after_cut h]
  cases last.kind with
  | jump => exact jump?_linked hc _ rfl rfl last []
  | jumpIfFalse | jumpIfTrue =>
      dsimp only
      rw [jump?_linked hc _ rfl rfl, Option.bind_eq_bind, Option.bind_some,
        goOn?_linked hc _ rfl hnext, List.map_append, List.append_assoc]
  | _ =>
      dsimp only
      rw [goOn?_linked hc _ rfl hnext, Option.toList_none, List.map_nil, List.append_nil]

/-- Leaving the blocks of all stretches after some first ones. -/
theorem connect?_linked {before after : List (Nat × Nat)} (h : cuts p = before ++ after) :
  (linked p (before.flatMap (edgesOf p)) (before.flatMap (danglingOf p))).connect? p
      (after.map fun d => blockName d.1)
    = some (linked p ((cuts p).flatMap (edgesOf p)) ((cuts p).flatMap (danglingOf p)))
  := by
  induction after generalizing before with
  | nil =>
      rw [List.append_nil] at h
      rw [h, List.map_nil, connect?]
  | cons c after ih =>
      have h' : cuts p = (before ++ [c]) ++ after := by rw [h, List.append_assoc]; rfl
      have hrest := ih h'
      rw [List.flatMap_append, List.flatMap_append, List.flatMap_singleton,
        List.flatMap_singleton] at hrest
      rw [List.map_cons, connect?, List.head?_map, leave?_linked h, Option.bind_eq_bind,
        Option.bind_some, hrest]

/-- The blocks of some first stretches, and the block of the stretch after them. -/
theorem insert_plainBlock {before after : List (Nat × Nat)} (h : cuts p = before ++ c :: after) :
  (⟨before.map fun c => (blockName c.1, plainBlock p c)⟩ : Dict Block).insert (blockName c.1)
      (plainBlock p c)
    = ⟨(before ++ [c]).map fun c => (blockName c.1, plainBlock p c)⟩
  := by
  have hnew : blockName c.1 ∉ (⟨before.map fun c => (blockName c.1, plainBlock p c)⟩ :
      Dict Block).keys := by
    have hnodup := blockNames_nodup p
    rw [h, List.map_append, List.map_cons] at hnodup
    intro hmem
    rw [Dict.keys, List.map_map] at hmem
    exact (List.nodup_append.mp hnodup).2.2 _ hmem _ List.mem_cons_self rfl
  rw [List.map_append]
  exact congrArg Dict.mk (Dict.entries_insert_of_notMem (plainBlock p c) hnew)

/-- Before any edge is added, the blocks are those of the stretches. -/
theorem plain_eq_linked (hp : p ≠ []) :
  plain p = linked p [] []
  := by
  let added (before : List (Nat × Nat)) : Graph :=
    { blocks := ⟨before.map fun c => (blockName c.1, plainBlock p c)⟩
      order := before.map fun c => blockName c.1
      size := p.length }
  have hadded : ∀ before after, cuts p = before ++ after →
      after.foldl (fun g c => g.addBlock (plainBlock p c)) (added before) = added (cuts p) := by
    intro before after h
    induction after generalizing before with
    | nil => rw [h, List.append_nil, List.foldl_nil]
    | cons c after ih =>
        have h' : cuts p = (before ++ [c]) ++ after := by rw [h, List.append_assoc]; rfl
        rw [← ih (before ++ [c]) h', List.foldl_cons]
        congr 1
        simp only [added]
        rw [← insert_plainBlock h, List.map_append]
        rfl
  have hstart : added [] = { size := p.length } := rfl
  have hcuts : stretches p.length (findLeaders p) = cuts p := by
    rw [cuts, leaders, if_neg (by simpa using hp)]
  have hblock : linkedBlock p [] [] = plainBlock p := by
    funext c
    simp [linkedBlock, predsOf, succsOf, joined, plainBlock]
  rw [plain, hcuts, ← hstart, hadded [] (cuts p) rfl, linked, hblock]
  rfl

/-- The first stretch of a program starts at its first place. -/
theorem exists_cuts_cons (hp : p ≠ []) :
  ∃ c cs, cuts p = c :: cs ∧ c.1 = 0
  := by
  cases p with
  | nil => cases hp rfl
  | cons i q =>
      obtain ⟨ls, hls⟩ := exists_leaders_cons i q
      rw [← map_fst_cuts] at hls
      obtain ⟨c, cs, hcuts, hc, -⟩ := List.map_eq_cons_iff.mp hls
      exact ⟨c, cs, hcuts, hc⟩

/-- The block of a stretch in the graph of a program. -/
def blockOf (p : Program) (c : Nat × Nat) : Block :=
  let edges := (cuts p).flatMap (edgesOf p)
  { linkedBlock p edges edges c with
    isEntry := c.1 == 0
    isExit := (succsOf p edges c).isEmpty }

/-- The blocks where the entry is marked and those exits that are among some stretches. -/
def markedBlock (p : Program) (before : List (Nat × Nat)) (c : Nat × Nat) : Block :=
  { blockOf p c with isExit := decide (c ∈ before) && (blockOf p c).succs.isEmpty }

/-- The exits among some stretches. -/
def exitsOf (p : Program) (before : List (Nat × Nat)) : List Text :=
  (before.filter fun c => (blockOf p c).succs.isEmpty).map fun c => blockName c.1

/-- The mark of one more stretch is that of an exit, if its block has no successors. -/
theorem markedBlock_concat (before : List (Nat × Nat)) (c a : Nat × Nat) :
  markedBlock p (before ++ [c]) a
    = if a = c then { markedBlock p before a with isExit := (blockOf p a).succs.isEmpty }
      else markedBlock p before a
  := by
  rw [markedBlock, markedBlock]
  split
  · next h => simp [h]
  · next h => simp [h]

theorem exitsOf_concat (before : List (Nat × Nat)) (c : Nat × Nat) :
  exitsOf p (before ++ [c])
    = exitsOf p before ++ if (blockOf p c).succs.isEmpty then [blockName c.1] else []
  := by
  rw [exitsOf, List.filter_append, List.filter_singleton, List.map_append, exitsOf]
  cases (blockOf p c).succs.isEmpty with
  | true => rfl
  | false => rfl

/-- Marking the exits among all stretches after some first ones. -/
theorem markExits?_marked {before after : List (Nat × Nat)} (h : cuts p = before ++ after)
    {g : Graph} (hblocks : g.blocks = blocksBy p (markedBlock p before))
    (hexits : g.exits = exitsOf p before) :
  g.markExits? (after.map fun c => blockName c.1)
    = some { g with blocks := blocksBy p (blockOf p), exits := exitsOf p (cuts p) }
  := by
  induction after generalizing before g with
  | nil =>
      rw [List.append_nil] at h
      have hall : blocksBy p (markedBlock p before) = blocksBy p (blockOf p) := by
        apply blocksBy_congr
        intro c hc
        rw [h] at hc
        simp only [markedBlock, hc, decide_true, Bool.true_and]
        rfl
      rw [List.map_nil, markExits?, h, ← hexits, ← hall, ← hblocks]
  | cons c after ih =>
      have h' : cuts p = (before ++ [c]) ++ after := by rw [h, List.append_assoc]; rfl
      have hc : c ∈ cuts p := by simp [h]
      have hblock : g.block? (blockName c.1) = some (markedBlock p before c) := by
        rw [block?, hblocks]
        exact get?_blocksBy hc
      have hsuccs : (markedBlock p before c).succs = (blockOf p c).succs := rfl
      have hconcat := exitsOf_concat (p := p) before c
      rw [List.map_cons, markExits?, hblock, Option.bind_eq_bind, Option.bind_some, hsuccs]
      split
      · next hexit =>
        rw [if_pos hexit, ← hexits] at hconcat
        have hupdate : g.update? (blockName c.1) (fun b => some { b with isExit := true })
            = some { g with blocks := blocksBy p (markedBlock p (before ++ [c])) } := by
          rw [update?_blocksBy (b := { markedBlock p before c with isExit := true }) hblocks hc rfl]
          congr 2
          apply blocksBy_update
          · rw [markedBlock_concat, if_pos rfl, hexit]
          · intro a _ hne
            rw [markedBlock_concat, if_neg hne]
        rw [hupdate, Option.bind_eq_bind, Option.bind_some, ih h' rfl hconcat.symm]
      · next hexit =>
        rw [if_neg hexit, List.append_nil, ← hexits] at hconcat
        have hsame : blocksBy p (markedBlock p before)
            = blocksBy p (markedBlock p (before ++ [c])) := by
          apply blocksBy_congr
          intro a _
          rw [markedBlock_concat]
          split
          · next ha =>
            subst ha
            rw [Bool.not_eq_true] at hexit
            simp only [markedBlock, hexit, Bool.and_false]
          · rfl
        exact ih h' (hblocks.trans hsame) hconcat.symm

/-- Marking the entry marks the block of the first stretch. -/
theorem markFirst?_linked (hp : p ≠ []) :
  (linked p ((cuts p).flatMap (edgesOf p)) dangling).markFirst?
    = some { linked p ((cuts p).flatMap (edgesOf p)) dangling with
      blocks := blocksBy p (markedBlock p [])
      entry := blockName 0 }
  := by
  obtain ⟨c, cs, hcuts, hstart⟩ := exists_cuts_cons hp
  have hc : c ∈ cuts p := by simp [hcuts]
  let g := linked p ((cuts p).flatMap (edgesOf p)) dangling
  have hhead : g.order.head? = some (blockName c.1) := by
    change ((cuts p).map fun c => blockName c.1).head? = _
    rw [hcuts]
    rfl
  have hupdate : g.update? (blockName c.1) (fun b => some { b with isEntry := true })
      = some { g with blocks := blocksBy p (markedBlock p []) } := by
    rw [update?_blocksBy (b := { linkedBlock p g.edges g.edges c with isEntry := true })
      (f := linkedBlock p g.edges g.edges) rfl hc rfl]
    congr 2
    apply blocksBy_update
    · rw [markedBlock, blockOf, hstart]
      rfl
    · intro a ha h
      have hne : a.1 ≠ 0 := fun hzero => h (cuts_inj ha hc (hzero.trans hstart.symm))
      rw [markedBlock, blockOf, beq_false_of_ne hne]
      rfl
  rw [markFirst?, hhead, Option.bind_eq_bind, Option.bind_some, hupdate, hstart]
  rfl

/-- The graph that the passes leave behind. -/
def outcome (p : Program) : Graph where
  blocks := blocksBy p (blockOf p)
  order := (cuts p).map fun c => blockName c.1
  entry := if p.isEmpty then [] else blockName 0
  exits := exitsOf p (cuts p)
  edges := (cuts p).flatMap (edgesOf p)
  dangling := (cuts p).flatMap (danglingOf p)
  size := p.length

/-- No pass looks for a block that is not there. -/
theorem build?_eq (p : Program) :
  build? p = some (outcome p)
  := by
  by_cases hp : p = []
  · subst hp
    rfl
  · have hconnect : (linked p [] []).connect? p (linked p [] []).order
        = some (linked p ((cuts p).flatMap (edgesOf p)) ((cuts p).flatMap (danglingOf p))) :=
      connect?_linked (List.nil_append _).symm
    rw [build?, if_neg (by simpa using hp), plain_eq_linked hp]
    dsimp only
    rw [hconnect, Option.bind_eq_bind, Option.bind_some, markFirst?_linked hp, Option.bind_some]
    apply Eq.trans (markExits?_marked (List.nil_append _).symm rfl rfl)
    rw [outcome, if_neg (by simpa using hp)]
    rfl

theorem build_eq (p : Program) :
  build p = outcome p
  := by
  rw [build, build?_eq]
  rfl

end Edges

end Graph

end ThreeAddress
