import Mathlib.Data.List.Sort
import ThreeAddress.Proofs.Flow.Building

/-!
# The blocks of a program's graph

`Graph.build` makes one block of every stretch between leaders.  Blocks are found under their
names, which are distinct; every place that an exit leads to is the start of a block; and the edges
that leave a block are those of its exit.
-/

namespace ThreeAddress

namespace Graph

/-! ### Blocks -/

@[simp]
theorem blockOf_id (p : Program) (c : Nat × Nat) :
  (blockOf p c).id = blockName c.1
  := rfl

@[simp]
theorem blockOf_start (p : Program) (c : Nat × Nat) :
  (blockOf p c).start = c.1
  := rfl

@[simp]
theorem blockOf_stop (p : Program) (c : Nat × Nat) :
  (blockOf p c).stop = c.2
  := rfl

@[simp]
theorem blockOf_instrs (p : Program) (c : Nat × Nat) :
  (blockOf p c).instrs = (p.drop c.1).take (c.2 + 1 - c.1)
  := rfl

theorem build_entries (p : Program) :
  (build p).blocks.entries = (cuts p).map fun c => (blockName c.1, blockOf p c)
  := by
  rw [build_eq]
  rfl

theorem build_keys (p : Program) :
  (build p).blocks.keys = (cuts p).map fun c => blockName c.1
  := by
  rw [Dict.keys, build_entries, List.map_map]
  rfl

theorem build_order (p : Program) :
  (build p).order = (cuts p).map fun c => blockName c.1
  := by
  rw [build_eq]
  rfl

theorem build_entry {p : Program} (hp : p ≠ []) :
  (build p).entry = blockName 0
  := by
  rw [build_eq]
  exact if_neg (by simpa using hp)

/-- The block of a stretch is found under the name of the stretch. -/
theorem block?_build {p : Program} {c : Nat × Nat} (h : c ∈ cuts p) :
  (build p).block? (blockName c.1) = some (blockOf p c)
  := by
  apply Dict.get?_of_mem
  · rw [build_keys]
    apply blockNames_nodup
  · rw [build_entries]
    apply List.mem_map_of_mem h

/-- The blocks of the graph are those of the stretches, in their order. -/
theorem blockList_build (p : Program) :
  (build p).blockList = (cuts p).map (blockOf p)
  := by
  rw [blockList, build_order, List.filterMap_map, ← List.filterMap_eq_map]
  apply List.filterMap_congr
  intro c hc
  apply block?_build hc

/-- The block that holds a place is that of the stretch around it. -/
theorem blockAt?_build {p : Program} {a b n : Nat} (h : (a, b) ∈ cuts p) (ha : a ≤ n) (hb : n ≤ b) :
  (build p).blockAt? n = some (blockOf p (a, b))
  := by
  have hsome : ((build p).blockAt? n).isSome := by
    rw [blockAt?, List.find?_isSome, blockList_build]
    use blockOf p (a, b), List.mem_map_of_mem h
    simp [ha, hb]
  obtain ⟨t, ht⟩ := Option.isSome_iff_exists.mp hsome
  have hmem := List.mem_of_find?_eq_some ht
  rw [blockList_build] at hmem
  obtain ⟨⟨a', b'⟩, h', rfl⟩ := List.mem_map.mp hmem
  have hplace := List.find?_some ht
  simp only [blockOf_start, blockOf_stop, Bool.and_eq_true] at hplace
  have hle := of_decide_eq_true hplace.1
  have hge := of_decide_eq_true hplace.2
  -- Neither of two stretches that hold the place begins inside the other.
  have hstart : a' ≤ a ∨ b < a' := by
    apply (tiles_cuts p).start_not_inside h (List.mem_map_of_mem h')
  have hstart' : a ≤ a' ∨ b' < a := by
    apply (tiles_cuts p).start_not_inside h' (List.mem_map_of_mem h)
  rw [ht, cuts_inj h' h (by dsimp only; omega)]

/-! ### Edges -/

theorem build_edges (p : Program) :
  (build p).edges = (cuts p).flatMap (edgesOf p)
  := by
  rw [build_eq]
  rfl

theorem build_dangling (p : Program) :
  (build p).dangling = (cuts p).flatMap (danglingOf p)
  := by
  rw [build_eq]
  rfl

/-- Of parts that carry distinct keys, the members with the key of one part are this part. -/
theorem filter_flatMap_key {α β : Type} {xs : List α} {f : α → List β} (key : α → Text)
    {keyOf : β → Text} (hnodup : (xs.map key).Nodup) (hkey : ∀ x, ∀ y ∈ f x, keyOf y = key x)
    {x : α} (hx : x ∈ xs) :
  (xs.flatMap f).filter (keyOf · == key x) = f x
  := by
  induction xs with
  | nil => simp at hx
  | cons z xs ih =>
      rw [List.map_cons, List.nodup_cons] at hnodup
      rw [List.flatMap_cons, List.filter_append]
      obtain rfl | hx := List.mem_cons.mp hx
      · have hrest : (xs.flatMap f).filter (keyOf · == key x) = [] := by
          rw [List.filter_eq_nil_iff]
          intro y hy heq
          obtain ⟨z, hz, hy⟩ := List.mem_flatMap.mp hy
          apply hnodup.1
          rw [← beq_iff_eq.mp heq, hkey z y hy]
          apply List.mem_map_of_mem hz
        have hself : (f x).filter (keyOf · == key x) = f x := by
          rw [List.filter_eq_self]
          intro y hy
          simp [hkey x y hy]
        rw [hrest, hself, List.append_nil]
      · have hother : (f z).filter (keyOf · == key x) = [] := by
          rw [List.filter_eq_nil_iff]
          intro y hy heq
          apply hnodup.1
          rw [← hkey z y hy, beq_iff_eq.mp heq]
          apply List.mem_map_of_mem hx
        rw [hother, List.nil_append, ih hnodup.2 hx]

/-- The edges that leave the block of a stretch are the edges of the stretch. -/
theorem edgesFrom_build {p : Program} {c : Nat × Nat} (h : c ∈ cuts p) :
  (build p).edgesFrom (blockName c.1) = edgesOf p c
  := by
  rw [edgesFrom, build_edges]
  apply filter_flatMap_key (fun c : Nat × Nat => blockName c.1) (blockNames_nodup p) _ h
  intro d e he
  obtain ⟨t, -, rfl⟩ := List.mem_map.mp he
  rfl

/-- The jumps of a block that lead nowhere are those of its stretch. -/
theorem filter_dangling_build {p : Program} {c : Nat × Nat} (h : c ∈ cuts p) :
  (build p).dangling.filter (·.block == blockName c.1) = danglingOf p c
  := by
  rw [build_dangling]
  apply filter_flatMap_key (fun c : Nat × Nat => blockName c.1) (blockNames_nodup p) _ h
  intro d e he
  obtain ⟨t, -, rfl⟩ := List.mem_map.mp he
  rfl

/-- There is an edge between the blocks of two stretches exactly if the exit of the first leads to
the second. -/
theorem edge_build_iff {p : Program} {c d : Nat × Nat} (hc : c ∈ cuts p) :
  ((build p).edges.any fun e => e.source == blockName c.1 && e.target == blockName d.1)
    ↔ d.1 ∈ (exitAt p c.2).targets.map (·.1)
  := by
  have hedges : ((build p).edges.any fun e => e.source == blockName c.1 && e.target == blockName d.1)
      = ((build p).edgesFrom (blockName c.1)).any (·.target == blockName d.1) := by
    rw [edgesFrom, List.any_filter]
  rw [hedges, edgesFrom_build hc, List.any_eq_true]
  constructor
  · rintro ⟨e, he, heq⟩
    obtain ⟨t, ht, rfl⟩ := List.mem_map.mp he
    rw [← blockName_injective (beq_iff_eq.mp heq)]
    apply List.mem_map_of_mem ht
  · intro h
    obtain ⟨t, ht, heq⟩ := List.mem_map.mp h
    use ⟨blockName c.1, blockName t.1, t.2⟩
    constructor
    · apply List.mem_map.mpr
      use t, ht
    · simp [heq]

end Graph

end ThreeAddress
