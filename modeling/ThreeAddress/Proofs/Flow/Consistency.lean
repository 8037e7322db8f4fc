import Mathlib.Data.List.Perm.Subperm
import ThreeAddress.Proofs.Flow.ControlFlow

/-!
# What the check of a graph ensures

`Graph.Checked g` says without reference to the check what the graphs that pass it are like: their
blocks partition the program, their edges are known to the blocks at both ends, every block has as
many edges as its last instruction asks for, exits are marked as such, and one block is marked as
the entry.

`Graph.Consistent g` asks for more: that blocks list no successors and predecessors but those at the
other ends of their edges, and that it is the first block that is marked as the entry.  The check
looks at neither.  It also takes the first name of an order that may be empty: then it has no answer
for a graph in which one block is marked as the entry.
-/

namespace ThreeAddress

namespace Graph

variable {g : Graph} {id : Text} {b : Block} {start stop : Int} {bs : List Block}

/-! ### Ranges -/

/-- The ranges of the blocks `bs`, in this order, partition the places from `start` to before
`stop`, and every block has one instruction for each of its places. -/
structure Partition (start stop : Int) (bs : List Block) : Prop where
  le : start ≤ stop
  filled : ∀ b ∈ bs, b.start ≤ b.stop ∧ (b.instrs.length : Int) = b.stop - b.start + 1
  ordered : bs.Pairwise fun b c => b.stop < c.start
  cover : ∀ n : Int, start ≤ n ∧ n < stop ↔ ∃ b ∈ bs, b.start ≤ n ∧ n ≤ b.stop

theorem partition_nil_iff :
  Partition start stop [] ↔ start = stop
  := by
  constructor
  · intro h
    have hle := h.le
    have hnot := h.cover start
    simp only [List.not_mem_nil, false_and, exists_false, iff_false] at hnot
    omega
  · rintro rfl
    refine ⟨Int.le_refl _, by simp, List.Pairwise.nil, ?_⟩
    intro n
    simp only [List.not_mem_nil, false_and, exists_false, iff_false]
    omega

/-- The first block of a partition starts where the partition starts. -/
theorem Partition.start_eq (h : Partition start stop (b :: bs)) :
  b.start = start
  := by
  have hfilled := (h.filled b List.mem_cons_self).1
  have hstart := (h.cover b.start).mpr ⟨b, List.mem_cons_self, Int.le_refl _, hfilled⟩
  by_contra hne
  obtain ⟨c, hc, hcstart, hcstop⟩ := (h.cover start).mp (by omega)
  obtain rfl | hc := List.mem_cons.mp hc
  · omega
  · have := (List.pairwise_cons.mp h.ordered).1 c hc
    omega

/-- The other blocks of a partition partition the places after the first block. -/
theorem Partition.tail (h : Partition start stop (b :: bs)) :
  Partition (b.stop + 1) stop bs
  := by
  obtain ⟨hafter, hordered⟩ := List.pairwise_cons.mp h.ordered
  have hfilled := (h.filled b List.mem_cons_self).1
  have hstop := (h.cover b.stop).mpr ⟨b, List.mem_cons_self, hfilled, Int.le_refl _⟩
  have hstart := h.start_eq
  refine ⟨by omega, fun c hc => h.filled c (List.mem_cons_of_mem _ hc), hordered, ?_⟩
  intro n
  constructor
  · rintro ⟨hle, hlt⟩
    obtain ⟨c, hc, hcn⟩ := (h.cover n).mp (by omega)
    obtain rfl | hc := List.mem_cons.mp hc
    · omega
    · use c, hc
  · rintro ⟨c, hc, hcn⟩
    have hwithin := (h.cover n).mpr ⟨c, List.mem_cons_of_mem _ hc, hcn⟩
    have := hafter c hc
    omega

/-- A block before a partition of the places after it makes a partition. -/
theorem Partition.cons (h : Partition (b.stop + 1) stop bs) (hle : b.start ≤ b.stop)
    (hlength : (b.instrs.length : Int) = b.stop - b.start + 1) :
  Partition b.start stop (b :: bs)
  := by
  have hrest : ∀ c ∈ bs, b.stop < c.start := by
    intro c hc
    have := (h.cover c.start).mpr ⟨c, hc, Int.le_refl _, (h.filled c hc).1⟩
    omega
  have hstop := h.le
  refine ⟨by omega, ?_, List.Pairwise.cons hrest h.ordered, ?_⟩
  · intro c hc
    obtain rfl | hc := List.mem_cons.mp hc
    · use hle, hlength
    · apply h.filled c hc
  · intro n
    simp only [List.mem_cons, exists_eq_or_imp, ← h.cover]
    omega

theorem partition_cons_iff :
  Partition start stop (b :: bs) ↔ b.start = start
    ∧ (b.start ≤ b.stop ∧ (b.instrs.length : Int) = b.stop - b.start + 1)
    ∧ Partition (b.stop + 1) stop bs
  := by
  constructor
  · intro h
    exact ⟨h.start_eq, h.filled b List.mem_cons_self, h.tail⟩
  · rintro ⟨rfl, ⟨hle, hlength⟩, h⟩
    apply h.cons hle hlength

/-- The check finds nothing wrong with the ranges exactly if all names are known and the ranges are
a partition. -/
theorem rangeProblems_eq_nil_iff (g : Graph) (next : Int) (ids : List Text) :
  g.rangeProblems next ids = []
    ↔ (∀ id ∈ ids, (g.block? id).isSome) ∧ Partition next g.size (ids.filterMap g.block?)
  := by
  induction ids generalizing next with
  | nil => simp [rangeProblems, partition_nil_iff]
  | cons id ids ih =>
      rw [rangeProblems]
      cases hb : g.block? id with
      | none => simp [hb]
      | some b =>
          rw [List.filterMap_cons, hb]
          simp only [List.append_eq_nil_iff, ite_eq_left_iff, ite_eq_right_iff, ih,
            partition_cons_iff, List.forall_mem_cons, hb, Option.isSome_some]
          simp only [List.cons_ne_nil, imp_false, not_not, not_or, Int.not_lt]
          tauto

/-- The names listed by an accepted order are different, since the ranges of their blocks are. -/
theorem Partition.nodup {ids : List Text} (hknown : ∀ id ∈ ids, (g.block? id).isSome)
    (h : Partition start stop (ids.filterMap g.block?)) :
  ids.Nodup
  := by
  have hordered := h.ordered
  rw [List.pairwise_filterMap] at hordered
  apply hordered.imp_of_mem
  rintro id _ hid - hlt rfl
  obtain ⟨b, hb⟩ := Option.isSome_iff_exists.mp (hknown id hid)
  have hmem : b ∈ ids.filterMap g.block? := List.mem_filterMap.mpr ⟨id, hid, hb⟩
  have := hlt b hb b hb
  have := (h.filled b hmem).1
  omega

theorem isSome_block?_iff :
  (g.block? id).isSome ↔ id ∈ g.blocks.keys
  := by
  rw [block?, ← Dict.contains_eq_isSome, Dict.contains, Dict.keys, List.any_eq_true, List.mem_map]
  simp

/-- An order of known and different names that are as many as the blocks lists just the names of the
blocks. -/
theorem perm_keys_of_length {ids : List Text} (hknown : ∀ id ∈ ids, (g.block? id).isSome)
    (hnodup : ids.Nodup) (hlength : ids.length = g.blocks.size) :
  ids.Perm g.blocks.keys
  := by
  have hsubset : ids ⊆ g.blocks.keys := fun id hid => isSome_block?_iff.mp (hknown id hid)
  apply (List.subperm_of_subset hnodup hsubset).perm_of_length_le
  rw [hlength, Dict.size, Dict.keys, List.length_map]

/-! ### Edges and ends of blocks -/

/-- Both ends of an edge are blocks, and these know of the edge. -/
def Linked (g : Graph) (e : Edge) : Prop :=
  ∃ s t, g.block? e.source = some s ∧ g.block? e.target = some t
    ∧ e.target ∈ s.succs ∧ e.source ∈ t.preds

theorem edgeProblems_eq_nil_iff {e : Edge} :
  g.edgeProblems e = [] ↔ g.Linked e
  := by
  rw [edgeProblems, Linked]
  cases g.block? e.source with
  | none => simp
  | some s =>
      cases g.block? e.target with
      | none => simp
      | some t => simp

/-- How many edges leave a block whose last instruction has the kind `kind`: one to the label of a
jump that does not dangle, and one to the next block unless there is none or control always
jumps. -/
def exitCount (kind : InstrKind) (isLast isDangling : Bool) : Nat :=
  (if kind.isJump ∧ ¬ isDangling then 1 else 0) + (if kind = .jump ∨ isLast then 0 else 1)

theorem edgesWanted_eq (kind : InstrKind) (isLast isDangling : Bool) :
  edgesWanted kind isLast isDangling = (exitCount kind isLast isDangling : Nat)
  := by
  cases kind with
  | _ => cases isLast with
    | _ => cases isDangling with
      | _ => rfl

/-- Every block of the list has as many edges as its last instruction asks for, and is marked as an
exit exactly if it has no successors. -/
structure EndsRight (g : Graph) (ids : List Text) : Prop where
  out : ∀ before id after b last, ids = before ++ id :: after → g.block? id = some b →
    b.instrs.getLast? = some last →
    (g.edgesFrom id).length
      = exitCount last.kind after.isEmpty (g.dangling.any (·.block == id))
  exit : ∀ id ∈ ids, ∀ b, g.block? id = some b → (b.isExit ↔ b.succs = [])

theorem exitProblems_eq_nil_iff {last : Instr} {isLast : Bool} (hb : g.block? id = some b)
    (hlast : b.instrs.getLast? = some last) :
  g.exitProblems id isLast = []
    ↔ (g.edgesFrom id).length = exitCount last.kind isLast (g.dangling.any (·.block == id))
      ∧ (b.isExit ↔ b.succs = [])
  := by
  have hexit : (b.isExit = b.succs.isEmpty) ↔ (b.isExit ↔ b.succs = []) := by
    rw [Bool.eq_iff_iff, List.isEmpty_iff]
  rw [exitProblems, hb]
  dsimp only
  rw [hlast]
  dsimp only
  rw [edgesWanted_eq, List.append_eq_nil_iff, ← hexit, ← Int.ofNat_inj]
  simp

/-- The check finds nothing wrong with the ends of blocks that are not empty exactly if they are
right. -/
theorem allExitProblems_eq_nil_iff {ids : List Text}
    (hfilled : ∀ id ∈ ids, ∃ b last, g.block? id = some b ∧ b.instrs.getLast? = some last) :
  g.allExitProblems ids = [] ↔ g.EndsRight ids
  := by
  induction ids with
  | nil =>
      simp only [allExitProblems, true_iff]
      constructor
      · simp
      · simp
  | cons id ids ih =>
      obtain ⟨b, last, hb, hlast⟩ := hfilled id List.mem_cons_self
      rw [allExitProblems, List.append_eq_nil_iff, exitProblems_eq_nil_iff hb hlast,
        ih fun id hid => hfilled id (List.mem_cons_of_mem _ hid)]
      constructor
      · rintro ⟨⟨hcount, hexit⟩, hrest⟩
        constructor
        · intro before id' after b' last' hsplit hb' hlast'
          cases before with
          | nil =>
              obtain ⟨rfl, rfl⟩ := List.cons.inj hsplit
              cases hb.symm.trans hb'
              cases hlast.symm.trans hlast'
              apply hcount
          | cons first before =>
              apply hrest.out before id' after b' last' (List.cons.inj hsplit).2 hb' hlast'
        · intro id' hid b' hb'
          obtain rfl | hid := List.mem_cons.mp hid
          · cases hb.symm.trans hb'
            apply hexit
          · apply hrest.exit id' hid b' hb'
      · intro h
        refine ⟨⟨h.out [] id ids b last rfl hb hlast, h.exit id List.mem_cons_self b hb⟩, ?_, ?_⟩
        · intro before id' after b' last' hsplit
          apply h.out (id :: before)
          rw [hsplit, List.cons_append]
        · intro id' hid
          apply h.exit id' (List.mem_cons_of_mem _ hid)

/-! ### The entry -/

/-- The names of the blocks that are marked as the entry. -/
def entryNames (g : Graph) : List Text := (g.blocks.entries.filter (·.2.isEntry)).map (·.1)

theorem length_entryNames (g : Graph) :
  g.entryNames.length = (g.blocks.entries.filter (·.2.isEntry)).length
  := List.length_map _

/-- The check of the entry has no answer exactly for an empty order and one block that is marked. -/
theorem entryProblems?_eq_none_iff :
  g.entryProblems? = none ↔ g.order = [] ∧ g.entryNames.length = 1
  := by
  rw [length_entryNames, entryProblems?]
  split
  · next hempty =>
    rw [List.isEmpty_iff] at hempty
    simp [hempty]
  · split
    · next hcount => simp [hcount]
    · next hcount =>
      rw [not_not] at hcount
      simp [hcount]

/-- The check of the entry finds nothing wrong with a graph without blocks exactly if it has no
entry, and with another one exactly if one block is marked and the entry is the first name. -/
theorem entryProblems?_eq_nil_iff (hnil : g.order = [] ↔ g.blocks.entries = []) :
  g.entryProblems? = some []
    ↔ g.entry = g.order.headD [] ∧ (g.order ≠ [] → ∃ id, g.entryNames = [id])
  := by
  simp only [← List.length_eq_one_iff, length_entryNames]
  rw [entryProblems?]
  split
  · next hempty =>
    rw [List.isEmpty_iff] at hempty
    have horder := hnil.mpr hempty
    simp [hempty, horder]
  · next hempty =>
    rw [List.isEmpty_iff, ← hnil] at hempty
    obtain ⟨first, rest, horder⟩ := List.exists_cons_of_ne_nil hempty
    split
    · next hcount => simp [horder, hcount]
    · next hcount =>
      rw [not_not] at hcount
      simp [horder, hcount]

/-! ### Checked and consistent graphs -/

/-- What the check of a graph ensures. -/
structure Checked (g : Graph) : Prop where
  /-- The order lists the names of the blocks, each once. -/
  order : g.order.Perm g.blocks.keys
  distinct : g.order.Nodup
  /-- In this order the ranges of the blocks partition the places of the program. -/
  partition : Partition 0 g.size g.blockList
  linked : ∀ e ∈ g.edges, g.Linked e
  ends : g.EndsRight g.order
  /-- The entry is the first block, and if there are blocks, one of them is marked as the entry. -/
  entry : g.entry = g.order.headD []
  marked : g.order ≠ [] → ∃ id, g.entryNames = [id]

/-- A graph is consistent if it is as the check ensures, blocks list just the other ends of their
edges as successors and predecessors, and just the first block is marked as the entry. -/
structure Consistent (g : Graph) : Prop extends Checked g where
  succs : ∀ id b, g.block? id = some b →
    ∀ t, t ∈ b.succs ↔ ∃ e ∈ g.edges, e.source = id ∧ e.target = t
  preds : ∀ id b, g.block? id = some b →
    ∀ s, s ∈ b.preds ↔ ∃ e ∈ g.edges, e.source = s ∧ e.target = id
  first : g.entryNames = g.order.take 1

/-- The successors and predecessors that blocks list have edges. -/
def Backed (g : Graph) : Prop :=
  ∀ id b, g.block? id = some b →
    (∀ t ∈ b.succs, ∃ e ∈ g.edges, e.source = id ∧ e.target = t)
      ∧ ∀ s ∈ b.preds, ∃ e ∈ g.edges, e.source = s ∧ e.target = id

/-- The block that the graph names as its entry is marked so. -/
def EntryMarked (g : Graph) : Prop := ∀ b, g.block? g.entry = some b → b.isEntry

theorem check?_eq_none_iff :
  g.check? = none ↔ g.entryProblems? = none
  := by
  simp [check?, problems?]

theorem check?_eq_accepted_iff :
  g.check? = some none ↔ g.rangeProblems 0 g.order = [] ∧ g.order.length = g.blocks.size
    ∧ (∀ e ∈ g.edges, g.Linked e) ∧ g.allExitProblems g.order = [] ∧ g.entryProblems? = some []
  := by
  rw [check?, problems?]
  cases g.entryProblems? with
  | none => simp
  | some entry => simp [List.flatMap_eq_nil_iff, edgeProblems_eq_nil_iff]

/-- A block whose range holds instructions has a last one. -/
theorem Partition.exists_last {ids : List Text} (hknown : ∀ id ∈ ids, (g.block? id).isSome)
    (h : Partition start stop (ids.filterMap g.block?)) :
  ∀ id ∈ ids, ∃ b last, g.block? id = some b ∧ b.instrs.getLast? = some last
  := by
  intro id hid
  obtain ⟨b, hb⟩ := Option.isSome_iff_exists.mp (hknown id hid)
  obtain ⟨hle, hlength⟩ := h.filled b (List.mem_filterMap.mpr ⟨id, hid, hb⟩)
  have hne : b.instrs ≠ [] := by
    intro hnil
    rw [hnil, List.length_nil] at hlength
    omega
  exact ⟨b, b.instrs.getLast hne, hb, List.getLast?_eq_some_getLast hne⟩

theorem order_eq_nil_iff (horder : g.order.Perm g.blocks.keys) :
  g.order = [] ↔ g.blocks.entries = []
  := by
  rw [← List.length_eq_zero_iff, horder.length_eq, Dict.keys, List.length_map,
    List.length_eq_zero_iff]

/-- The graphs that pass the check are those that are as it ensures. -/
theorem check?_eq_some_none_iff :
  g.check? = some none ↔ g.Checked
  := by
  rw [check?_eq_accepted_iff, rangeProblems_eq_nil_iff]
  constructor
  · rintro ⟨⟨hknown, hpartition⟩, hlength, hlinked, hexits, hentry⟩
    have hdistinct := hpartition.nodup hknown
    have horder := perm_keys_of_length hknown hdistinct hlength
    obtain ⟨hfirst, hmarked⟩ := (entryProblems?_eq_nil_iff (order_eq_nil_iff horder)).mp hentry
    have hends := (allExitProblems_eq_nil_iff (hpartition.exists_last hknown)).mp hexits
    exact ⟨horder, hdistinct, hpartition, hlinked, hends, hfirst, hmarked⟩
  · intro h
    have hknown : ∀ id ∈ g.order, (g.block? id).isSome :=
      fun id hid => isSome_block?_iff.mpr (h.order.mem_iff.mp hid)
    have hlength : g.order.length = g.blocks.size := by
      rw [h.order.length_eq, Dict.keys, List.length_map]
      rfl
    refine ⟨⟨hknown, h.partition⟩, hlength, h.linked, ?_, ?_⟩
    · apply (allExitProblems_eq_nil_iff (h.partition.exists_last hknown)).mpr h.ends
    · apply (entryProblems?_eq_nil_iff (order_eq_nil_iff h.order)).mpr ⟨h.entry, h.marked⟩

/-- In a checked graph the blocks list just the other ends of their edges if what they list has
edges. -/
theorem Checked.mem_succs_iff (h : g.Checked) (hbacked : g.Backed) (hb : g.block? id = some b)
    (t : Text) :
  t ∈ b.succs ↔ ∃ e ∈ g.edges, e.source = id ∧ e.target = t
  := by
  constructor
  · apply (hbacked id b hb).1
  · rintro ⟨e, he, rfl, rfl⟩
    obtain ⟨s, -, hs, -, hmem, -⟩ := h.linked e he
    cases hb.symm.trans hs
    apply hmem

theorem Checked.mem_preds_iff (h : g.Checked) (hbacked : g.Backed) (hb : g.block? id = some b)
    (s : Text) :
  s ∈ b.preds ↔ ∃ e ∈ g.edges, e.source = s ∧ e.target = id
  := by
  constructor
  · apply (hbacked id b hb).2
  · rintro ⟨e, he, rfl, rfl⟩
    obtain ⟨-, t, -, ht, -, hmem⟩ := h.linked e he
    cases hb.symm.trans ht
    apply hmem

theorem mem_entryNames_iff (hkeys : g.blocks.keys.Nodup) :
  id ∈ g.entryNames ↔ ∃ b, g.block? id = some b ∧ b.isEntry
  := by
  rw [entryNames, List.mem_map]
  constructor
  · rintro ⟨⟨id', b⟩, h, rfl⟩
    obtain ⟨hmem, hentry⟩ := List.mem_filter.mp h
    exact ⟨b, Dict.get?_of_mem hkeys hmem, hentry⟩
  · rintro ⟨b, hb, hentry⟩
    rw [block?, Dict.get?, Option.map_eq_some_iff] at hb
    obtain ⟨⟨id', b'⟩, hfind, rfl⟩ := hb
    have hid : id' = id := by simpa using List.find?_some hfind
    exact ⟨(id', b'), List.mem_filter.mpr ⟨List.mem_of_find?_eq_some hfind, hentry⟩, hid⟩

/-- In a checked graph just the first block is marked as the entry exactly if the block that the
graph names as its entry is marked. -/
theorem Checked.entryNames_eq_iff (h : g.Checked) :
  g.entryNames = g.order.take 1 ↔ g.EntryMarked
  := by
  have hkeys := h.order.nodup_iff.mp h.distinct
  cases horder : g.order with
  | nil =>
      have hempty := (order_eq_nil_iff h.order).mp horder
      simp [entryNames, EntryMarked, block?, Dict.get?, hempty]
  | cons first rest =>
      have hentry := h.entry
      rw [horder, List.headD_cons] at hentry
      obtain ⟨id, hid⟩ := h.marked (by simp [horder])
      have hmem : first ∈ g.entryNames ↔ g.EntryMarked := by
        obtain ⟨b, hb⟩ : ∃ b, g.block? first = some b := by
          apply Option.isSome_iff_exists.mp
          rw [isSome_block?_iff, ← h.order.mem_iff, horder]
          apply List.mem_cons_self
        rw [mem_entryNames_iff hkeys, EntryMarked, hentry]
        simp [hb]
      rw [← hmem, hid]
      simp [eq_comm]

/-- The check of a graph has no answer exactly if the order is empty and one block is marked as the
entry; the graphs that pass it are those that are as it ensures; and a graph is consistent exactly
if it passes, what the blocks list as successors and predecessors has edges, and the block named as
the entry is marked so. -/
theorem check_accepts_iff (g : Graph) :
  (g.check? = none ↔ g.order = [] ∧ g.entryNames.length = 1)
    ∧ (g.check? = some none ↔ g.Checked)
    ∧ (g.Consistent ↔ g.check? = some none ∧ g.Backed ∧ g.EntryMarked)
  := by
  refine ⟨check?_eq_none_iff.trans entryProblems?_eq_none_iff, check?_eq_some_none_iff, ?_⟩
  rw [check?_eq_some_none_iff]
  constructor
  · intro h
    refine ⟨h.toChecked, ?_, h.entryNames_eq_iff.mp h.first⟩
    intro id b hb
    exact ⟨fun t => (h.succs id b hb t).mp, fun s => (h.preds id b hb s).mp⟩
  · rintro ⟨h, hbacked, hmarked⟩
    refine ⟨h, ?_, ?_, h.entryNames_eq_iff.mpr hmarked⟩
    · intro id b hb
      apply h.mem_succs_iff hbacked hb
    · intro id b hb
      apply h.mem_preds_iff hbacked hb

/-- A graph of one block that its order does not list. -/
def unlisted : Graph where
  blocks := ⟨[("B0", { id := "B0", start := 0, stop := 0, isEntry := true, isExit := true
                       instrs := [{ kind := .print, source := .literal .number "1" }] })]⟩
  entry := "B0"
  size := 1

/-- A graph of two blocks whose second one is marked as the entry in place of the first. -/
def secondMarked : Graph where
  blocks := ⟨[("B0", { id := "B0", start := 0, stop := 0, succs := ["B1"]
                       instrs := [{ kind := .print, source := .literal .number "1" }] }),
              ("B1", { id := "B1", start := 1, stop := 1, preds := ["B0"], isEntry := true
                       isExit := true
                       instrs := [{ kind := .print, source := .literal .number "2" }] })]⟩
  order := ["B0", "B1"]
  entry := "B0"
  exits := ["B1"]
  edges := [⟨"B0", "B1", []⟩]
  size := 2

/-- A graph of one block that lists a successor and a predecessor, though there is no edge. -/
def strayLinks : Graph where
  blocks := ⟨[("B0", { id := "B0", start := 0, stop := 0, preds := ["B3"], succs := ["B7"]
                       isEntry := true
                       instrs := [{ kind := .print, source := .literal .number "1" }] })]⟩
  order := ["B0"]
  entry := "B0"
  size := 1

/-- The check has no answer for a block that is not listed, and lets pass a second block that is
marked as the entry and links that have no edge. -/
theorem check_misses_faults :
  unlisted.check? = none
    ∧ (secondMarked.check? = some none ∧ ¬ secondMarked.Consistent)
    ∧ (strayLinks.check? = some none ∧ ¬ strayLinks.Consistent)
  := by
  refine ⟨by decide +kernel, ⟨by decide +kernel, ?_⟩, by decide +kernel, ?_⟩
  · intro h
    have hfirst : secondMarked.entryNames = ["B0"] := h.first
    revert hfirst
    decide +kernel
  · intro h
    obtain ⟨e, he, -⟩ := (h.succs "B0" _ rfl "B7").mp (by decide +kernel)
    cases he

end Graph

end ThreeAddress
