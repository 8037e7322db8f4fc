import ThreeAddress.Flow.Levels
import ThreeAddress.Proofs.Flow.Liveness

/-!
# Levels are distances

`Graph.PathTo g d id` says that a path of `d` edges leads from the entry to the block named `id`,
and `Graph.Distance g id d` that a shortest one does.  The search for the levels looks at blocks in
the order of a queue, in which the depths never fall and rise by at most one.  So when a block is
seen first, every block that is nearer than the front of the queue has been seen, and the depth that
the block is given is its distance.  A block can be reached along edges exactly if its first
instruction can be reached from the first one of the program, one instruction at a time.
-/

namespace ThreeAddress

namespace Graph

/-- A path of `d` edges leads from the entry to the block named `id`. -/
inductive PathTo (g : Graph) : Nat → Text → Prop
  | entry : g.entry ∈ g.order → PathTo g 0 g.entry
  | edge {d e} : PathTo g d e.source → e ∈ g.edges → PathTo g (d + 1) e.target

/-- The shortest path from the entry to the block named `id` has `d` edges. -/
def Distance (g : Graph) (id : Text) (d : Nat) : Prop :=
  g.PathTo d id ∧ ∀ d', g.PathTo d' id → d ≤ d'

variable {g : Graph} {p : Program} {id : Text} {d : Nat}

/-! ### Distances -/

theorem pathTo_zero_iff :
  g.PathTo 0 id ↔ id = g.entry ∧ g.entry ∈ g.order
  := by
  constructor
  · intro h
    cases h with
    | entry h => exact ⟨rfl, h⟩
  · rintro ⟨rfl, h⟩
    exact .entry h

theorem distance_zero_iff :
  g.Distance id 0 ↔ id = g.entry ∧ g.entry ∈ g.order
  := by
  rw [← pathTo_zero_iff]
  constructor
  · exact fun h => h.1
  · exact fun h => ⟨h, fun d' _ => Nat.zero_le d'⟩

/-- What can be reached has a distance, which is at most the length of the path. -/
theorem PathTo.exists_distance (h : g.PathTo d id) :
  ∃ d' ≤ d, g.Distance id d'
  := by
  classical
  have hex : ∃ d, g.PathTo d id := ⟨d, h⟩
  exact ⟨Nat.find hex, Nat.find_min' hex h, Nat.find_spec hex, fun d' hd' => Nat.find_min' hex hd'⟩

theorem Distance.unique {d' : Nat} (h : g.Distance id d) (h' : g.Distance id d') :
  d = d'
  := Nat.le_antisymm (h.2 d' h'.1) (h'.2 d h.1)

/-- A block is further away by one exactly if an edge leads to it and it is not nearer. -/
theorem distance_succ_iff :
  g.Distance id (d + 1)
    ↔ (∃ e ∈ g.edges, g.Distance e.source d ∧ e.target = id) ∧ ∀ d' ≤ d, ¬ g.Distance id d'
  := by
  constructor
  · rintro ⟨hpath, hleast⟩
    constructor
    · cases hpath with
      | @edge _ e hsource he =>
          obtain ⟨d', hd', hdist⟩ := hsource.exists_distance
          have hle := hleast (d' + 1) (.edge hdist.1 he)
          obtain rfl : d' = d := by omega
          exact ⟨e, he, hdist, rfl⟩
    · intro d' hd' hdist
      have hle := hleast d' hdist.1
      omega
  · rintro ⟨⟨e, he, hsource, rfl⟩, hnot⟩
    refine ⟨.edge hsource.1 he, ?_⟩
    intro d' hpath
    obtain ⟨d'', hd'', hdist⟩ := hpath.exists_distance
    by_contra hlt
    exact hnot d'' (by omega) hdist

/-- On the way to a block there is one at every smaller distance. -/
theorem Distance.exists_nearer {n : Nat} (h : g.Distance id (d + n)) :
  ∃ id', g.Distance id' d
  := by
  induction n generalizing id with
  | zero => exact ⟨id, h⟩
  | succ n ih =>
      obtain ⟨⟨e, -, hsource, -⟩, -⟩ := distance_succ_iff.mp h
      exact ih hsource

/-! ### The next level -/

namespace ControlFlow

/-- The successors of a block are the blocks that its edges lead to. -/
theorem mem_succs_iff (h : ControlFlow p g) {b : Block} (hb : b ∈ g.blockList) :
  id ∈ b.succs ↔ ∃ e ∈ g.edges, e.source = b.id ∧ e.target = id
  := by
  rw [h.succs b hb, List.mem_map]
  constructor
  · rintro ⟨t, ht, rfl⟩
    obtain ⟨e, he, hends⟩ := List.any_eq_true.mp (List.mem_filter.mp ht).2
    rw [Bool.and_eq_true, beq_iff_eq, beq_iff_eq] at hends
    exact ⟨e, he, hends⟩
  · rintro ⟨e, he, hsource, rfl⟩
    obtain ⟨b', -, t, ht, -, htarget⟩ := h.exists_ends he
    refine ⟨t, List.mem_filter.mpr ⟨ht, ?_⟩, htarget.symm⟩
    apply List.any_eq_true.mpr
    exact ⟨e, he, by simp [hsource, htarget]⟩

/-- A path ends at a block of the graph. -/
theorem mem_order_of_pathTo (h : ControlFlow p g) (hpath : g.PathTo d id) :
  id ∈ g.order
  := by
  cases hpath with
  | entry hentry => exact hentry
  | edge _ he =>
      obtain ⟨-, -, t, ht, -, htarget⟩ := h.exists_ends he
      rw [htarget, h.order]
      exact List.mem_map_of_mem ht

/-- A name to which a path leads has a block. -/
theorem exists_block (h : ControlFlow p g) (hpath : g.PathTo d id) :
  ∃ b ∈ g.blockList, b.id = id ∧ g.block? id = some b
  := by
  have hmem := h.mem_order_of_pathTo hpath
  rw [h.order] at hmem
  obtain ⟨b, hb, rfl⟩ := List.mem_map.mp hmem
  exact ⟨b, hb, rfl, h.block?_id hb⟩

end ControlFlow

/-! ### The search -/

namespace Sweep

variable {s : Sweep} {busy : Text → Prop} {source : Text}

theorem contains_iff :
  s.depth.contains id = true ↔ ∃ n, s.depth.get? id = some n
  := by
  rw [Dict.contains_eq_isSome, Option.isSome_iff_exists]

theorem contains_insert (n : Nat) (id' : Text) :
  (s.depth.insert id n).contains id' = true ↔ id = id' ∨ s.depth.contains id' = true
  := by
  rw [Dict.contains_eq_isSome, Dict.contains_eq_isSome, Dict.get?_insert]
  by_cases h : id = id'
  · simp [h]
  · simp [h]

/-- The depths of a search are distances, and its queue rises from the depth `d` by at most one.
The edges of every block that was seen have been followed, unless it waits or is `busy`. -/
structure Sound (g : Graph) (d : Nat) (busy : Text → Prop) (s : Sweep) : Prop where
  entry : s.depth.contains g.entry = true
  exact : ∀ id n, s.depth.get? id = some n → g.Distance id n
  rising : ∃ near far, s.waiting = near ++ far ∧ (∀ id ∈ near, s.depth.get? id = some d)
    ∧ ∀ id ∈ far, s.depth.get? id = some (d + 1)
  followed : ∀ e ∈ g.edges, s.depth.contains e.source = true → e.source ∉ s.waiting →
    ¬ busy e.source → s.depth.contains e.target = true
  deepest : (∀ id n, s.depth.get? id = some n → n ≤ s.deepest)
    ∧ ∃ id, s.depth.get? id = some s.deepest

theorem sound_start (hentry : g.entry ∈ g.order) :
  Sound g 0 (fun _ => False) (start g.entry)
  := by
  have hget : ∀ id n, (start g.entry).depth.get? id = some n → g.entry = id ∧ n = 0 := by
    intro id n h
    rw [start, Dict.get?_insert] at h
    split at h
    · next hid => exact ⟨hid, (Option.some.inj h).symm⟩
    · cases h
  have hself : (start g.entry).depth.get? g.entry = some 0 := Dict.get?_insert_self _ _ _
  constructor
  case entry => exact contains_iff.mpr ⟨0, hself⟩
  case exact =>
    intro id n h
    obtain ⟨rfl, rfl⟩ := hget id n h
    exact distance_zero_iff.mpr ⟨rfl, hentry⟩
  case rising =>
    refine ⟨[g.entry], [], rfl, ?_, by simp⟩
    rw [List.forall_mem_singleton]
    exact hself
  case followed =>
    intro e _ hseen hnot
    obtain ⟨n, hn⟩ := contains_iff.mp hseen
    rw [← (hget _ n hn).1] at hnot
    exact absurd List.mem_cons_self hnot
  case deepest =>
    refine ⟨fun id n h => ?_, g.entry, hself⟩
    rw [(hget id n h).2]
    apply Nat.zero_le

namespace Sound

/-- All blocks that are at most as far away as the front of the queue have been seen: on a shortest
path to one of them, every block is nearer than the queue, so its edges have been followed. -/
theorem contains_of_le (h : Sound g d busy s) (hbusy : ∀ id, busy id → s.depth.get? id = some d)
    {n : Nat} (hle : n ≤ d) (hdist : g.Distance id n) :
  s.depth.contains id = true
  := by
  induction n generalizing id with
  | zero =>
      rw [(distance_zero_iff.mp hdist).1]
      exact h.entry
  | succ n ih =>
      obtain ⟨⟨e, he, hsource, rfl⟩, -⟩ := distance_succ_iff.mp hdist
      have hseen := ih (by omega) hsource
      obtain ⟨m, hm⟩ := contains_iff.mp hseen
      obtain rfl := (h.exact _ m hm).unique hsource
      refine h.followed e he hseen ?_ ?_
      · intro hwaits
        obtain ⟨near, far, hwaiting, hnear, hfar⟩ := h.rising
        rw [hwaiting, List.mem_append] at hwaits
        obtain hin | hin := hwaits
        · have heq := Option.some.inj (hm.symm.trans (hnear _ hin))
          omega
        · have heq := Option.some.inj (hm.symm.trans (hfar _ hin))
          omega
      · intro hb
        have heq := Option.some.inj (hm.symm.trans (hbusy _ hb))
        omega

/-- The depth that a name is given when it is first seen is its distance. -/
theorem distance_of_first (h : Sound g d (· = source) s) (hsource : s.depth.get? source = some d)
    {e : Edge} (he : e ∈ g.edges) (hends : e.source = source)
    (hnot : ¬ s.depth.contains e.target = true) :
  g.Distance e.target (d + 1)
  := by
  subst hends
  refine ⟨.edge (h.exact _ d hsource).1 he, ?_⟩
  intro d' hpath
  by_contra hlt
  obtain ⟨d'', hd'', hdist⟩ := hpath.exists_distance
  apply hnot
  apply h.contains_of_le (n := d'') _ (by omega) hdist
  rintro id rfl
  exact hsource

/-- A depth that is added to others is the deepest, unless a deeper one is there. -/
theorem deepest_insert {depth : Dict Nat} {deepest d : Nat} {target : Text}
    (hdeepest : (∀ id n, depth.get? id = some n → n ≤ deepest)
      ∧ ∃ id, depth.get? id = some deepest)
    (hkeeps : ∀ id n, depth.get? id = some n → (depth.insert target d).get? id = some n) :
  (∀ id n, (depth.insert target d).get? id = some n → n ≤ max deepest d)
    ∧ ∃ id, (depth.insert target d).get? id = some (max deepest d)
  := by
  obtain ⟨hmost, id, hid⟩ := hdeepest
  constructor
  · intro id' n hn
    rw [Dict.get?_insert] at hn
    split at hn
    · rw [← Option.some.inj hn]
      apply Nat.le_max_right
    · exact Nat.le_trans (hmost id' n hn) (Nat.le_max_left _ _)
  · by_cases hle : d ≤ deepest
    · use id
      rw [Nat.max_eq_left hle]
      exact hkeeps id _ hid
    · use target
      rw [Nat.max_eq_right (Nat.le_of_not_le hle)]
      exact Dict.get?_insert_self _ _ _

/-- To look at a successor keeps a search sound, and the successor has been seen then. -/
theorem see (h : Sound g d (· = source) s) (hsource : s.depth.get? source = some d)
    {e : Edge} (he : e ∈ g.edges) (hends : e.source = source) :
  Sound g d (· = source) (s.see d e.target) ∧ (s.see d e.target).depth.contains e.target = true
    ∧ (s.see d e.target).depth.get? source = some d
    ∧ ∀ id, s.depth.contains id = true → (s.see d e.target).depth.contains id = true
  := by
  rw [Sweep.see]
  split
  · next hseen => exact ⟨h, hseen, hsource, fun _ => id⟩
  · next hnot =>
    have hdist := h.distance_of_first hsource he hends hnot
    have hkeeps : ∀ id n, s.depth.get? id = some n →
        (s.depth.insert e.target (d + 1)).get? id = some n := by
      intro id n hn
      rw [Dict.get?_insert_of_ne, hn]
      rintro rfl
      exact hnot (contains_iff.mpr ⟨n, hn⟩)
    refine ⟨?_, contains_iff.mpr ⟨d + 1, Dict.get?_insert_self _ _ _⟩, hkeeps _ _ hsource,
      fun id hid => (contains_insert _ id).mpr (.inr hid)⟩
    constructor
    case entry => exact (contains_insert _ _).mpr (.inr h.entry)
    case exact =>
      intro id n hn
      rw [Dict.get?_insert] at hn
      split at hn
      · next heq =>
        rw [← heq, ← Option.some.inj hn]
        exact hdist
      · exact h.exact id n hn
    case rising =>
      obtain ⟨near, far, hwaiting, hnear, hfar⟩ := h.rising
      refine ⟨near, far ++ [e.target], ?_, fun id hid => hkeeps id d (hnear id hid), ?_⟩
      · rw [hwaiting, List.append_assoc]
      · rw [List.forall_mem_append, List.forall_mem_singleton]
        exact ⟨fun id hid => hkeeps id _ (hfar id hid), Dict.get?_insert_self _ _ _⟩
    case followed =>
      intro e' he' hseen hwaits hbusy
      rw [List.mem_append, not_or] at hwaits
      obtain heq | hseen := (contains_insert _ _).mp hseen
      · exact absurd (List.mem_singleton.mpr heq.symm) hwaits.2
      · exact (contains_insert _ _).mpr (.inr (h.followed e' he' hseen hwaits.1 hbusy))
    case deepest => exact deepest_insert h.deepest hkeeps

/-- When all successors of a block have been looked at, its edges have been followed. -/
theorem foldl_see (hcf : ControlFlow p g) {b : Block} (hb : b ∈ g.blockList)
    (h : Sound g d (· = b.id) s) (hsource : s.depth.get? b.id = some d) :
  Sound g d (fun _ => False) (b.succs.foldl (Sweep.see d) s)
  := by
  have hmain : ∀ (ids : List Text) (s : Sweep), (∀ id ∈ ids, id ∈ b.succs) →
      Sound g d (· = b.id) s → s.depth.get? b.id = some d →
      Sound g d (· = b.id) (ids.foldl (Sweep.see d) s)
        ∧ (∀ id ∈ ids, (ids.foldl (Sweep.see d) s).depth.contains id = true)
        ∧ ∀ id, s.depth.contains id = true →
          (ids.foldl (Sweep.see d) s).depth.contains id = true := by
    intro ids
    induction ids with
    | nil => exact fun s _ h _ => ⟨h, by simp, fun _ => id⟩
    | cons id ids ih =>
        intro s hids h hsource
        obtain ⟨hid, hids'⟩ := List.forall_mem_cons.mp hids
        obtain ⟨e, he, hends, rfl⟩ := (hcf.mem_succs_iff hb).mp hid
        obtain ⟨hsee, hseen, hsource', hmono⟩ := h.see hsource he hends
        obtain ⟨hfold, hall, hmono'⟩ := ih _ hids' hsee hsource'
        exact ⟨hfold, List.forall_mem_cons.mpr ⟨hmono' _ hseen, hall⟩,
          fun id' hid' => hmono' id' (hmono id' hid')⟩
  obtain ⟨hfold, hall, -⟩ := hmain b.succs s (fun _ => id) h hsource
  refine ⟨hfold.entry, hfold.exact, hfold.rising, ?_, hfold.deepest⟩
  intro e he hseen hwaits _
  by_cases hends : e.source = b.id
  · exact hall _ ((hcf.mem_succs_iff hb).mpr ⟨e, he, hends, rfl⟩)
  · exact hfold.followed e he hseen hwaits hends

/-- The queue rises from the depth of its front, which may be one more than it was. -/
theorem exists_front {rest : List Text} (h : Sound g d busy s) (hwaiting : s.waiting = id :: rest) :
  ∃ d', Sound g d' busy s ∧ s.depth.get? id = some d'
    ∧ ∃ near far, rest = near ++ far ∧ (∀ id ∈ near, s.depth.get? id = some d')
      ∧ ∀ id ∈ far, s.depth.get? id = some (d' + 1)
  := by
  obtain ⟨near, far, hsplit, hnear, hfar⟩ := h.rising
  rw [hwaiting] at hsplit
  cases near with
  | cons a near =>
      obtain ⟨rfl, rfl⟩ := List.cons.inj hsplit
      obtain ⟨ha, hnear⟩ := List.forall_mem_cons.mp hnear
      exact ⟨d, h, ha, near, far, rfl, hnear, hfar⟩
  | nil =>
      rw [List.nil_append] at hsplit
      subst hsplit
      obtain ⟨hid, hrest⟩ := List.forall_mem_cons.mp hfar
      refine ⟨d + 1, ⟨h.entry, h.exact, ?_, h.followed, h.deepest⟩, hid, rest, [], ?_, hrest,
        by simp⟩
      · exact ⟨id :: rest, [], by rw [hwaiting, List.append_nil], hfar, by simp⟩
      · rw [List.append_nil]

/-- What one round does keeps a search sound. -/
theorem step (hcf : ControlFlow p g) {b : Block} {rest : List Text} (hb : b ∈ g.blockList)
    (h : Sound g d (fun _ => False) s) (hwaiting : s.waiting = b.id :: rest) :
  ∃ d', Sound g d' (fun _ => False) (s.step b.id rest b)
  := by
  obtain ⟨d', h, hid, near, far, hrest, hnear, hfar⟩ := h.exists_front hwaiting
  use d'
  rw [Sweep.step, hid, Option.getD_some]
  apply foldl_see (s := { s with waiting := rest }) hcf hb _ hid
  refine ⟨h.entry, h.exact, ⟨near, far, hrest, hnear, hfar⟩, ?_, h.deepest⟩
  intro e he hseen hwaits hbusy
  apply h.followed e he hseen _ id
  rw [hwaiting, List.mem_cons, not_or]
  exact ⟨hbusy, hwaits⟩

end Sound

/-- A sound search ends without coming to a name that has no block, and nothing waits then. -/
theorem exists_run? (hcf : ControlFlow p g) (h : Sound g d (fun _ => False) s) :
  ∃ s' d', s.run? g = some s' ∧ s'.waiting = [] ∧ Sound g d' (fun _ => False) s'
  := by
  fun_induction run? g s generalizing d with
  | case1 s hwaiting => exact ⟨s, d, rfl, hwaiting, h⟩
  | case2 s id rest hwaiting hnone =>
      obtain ⟨d', -, hid, -⟩ := h.exists_front hwaiting
      obtain ⟨b, -, -, hb⟩ := hcf.exists_block (h.exact _ _ hid).1
      rw [hnone] at hb
      cases hb
  | case3 s id rest hwaiting b hb hlt ih =>
      obtain ⟨d', -, hid, -⟩ := h.exists_front hwaiting
      obtain ⟨b', hmem, rfl, hb'⟩ := hcf.exists_block (h.exact _ _ hid).1
      obtain rfl := Option.some.inj (hb.symm.trans hb')
      obtain ⟨d'', hstep⟩ := h.step hcf hmem hwaiting
      exact ih hstep

/-- When nothing waits, every block to which a path leads has its distance as its depth. -/
theorem Sound.get?_iff (h : Sound g d (fun _ => False) s) (hwaiting : s.waiting = []) (n : Nat) :
  s.depth.get? id = some n ↔ g.Distance id n
  := by
  have hall : ∀ {n id}, g.PathTo n id → s.depth.contains id = true := by
    intro n id hpath
    induction hpath with
    | entry => exact h.entry
    | edge _ he ih => exact h.followed _ he ih (by simp [hwaiting]) nofun
  constructor
  · apply h.exact
  · intro hdist
    obtain ⟨m, hm⟩ := contains_iff.mp (hall hdist.1)
    rw [hm, (h.exact _ _ hm).unique hdist]

/-- Names are put behind those that are in the level of their depth. -/
theorem foldlM_place? (ids : List Text) {levels : List (List Text)}
    (hdepth : ∀ id n, s.depth.get? id = some n → n < levels.length) :
  ids.foldlM s.place? levels
    = some (levels.mapIdx fun n level => level ++ ids.filter (s.depth.get? · == some n))
  := by
  induction ids generalizing levels with
  | nil => simp [List.mapIdx_eq_zipIdx_map]
  | cons id ids ih =>
      rw [List.foldlM_cons, place?]
      cases hid : s.depth.get? id with
      | none =>
          rw [Option.bind_eq_bind, Option.bind_some, ih hdepth]
          simp [hid]
      | some n =>
          have hlength : (levels.modify n (· ++ [id])).length = levels.length :=
            List.length_modify ..
          dsimp only
          rw [if_pos (hdepth id n hid), Option.bind_eq_bind, Option.bind_some,
            ih (by rw [hlength]; exact hdepth)]
          congr 1
          apply List.ext_getElem?
          intro i
          rw [List.getElem?_mapIdx, List.getElem?_mapIdx, List.getElem?_modify, List.filter_cons,
            hid]
          by_cases hi : n = i
          · simp [hi, Function.comp_def]
          · simp [hi]

end Sweep

/-! ### All levels -/

/-- The lists hold the blocks of the graph by distance. -/
structure ByDistance (g : Graph) (levels : List (List Text)) : Prop where
  nonempty : ∀ level ∈ levels, level ≠ []
  sublist : ∀ level ∈ levels, level.Sublist g.order
  mem : ∀ n id, (∃ level, levels[n]? = some level ∧ id ∈ level) ↔ g.Distance id n

/-- A search at its end gives the levels. -/
theorem Sweep.byDistance {s : Sweep} (hcf : ControlFlow p g)
    (h : Sweep.Sound g d (fun _ => False) s) (hwaiting : s.waiting = []) :
  g.ByDistance
    ((List.range (s.deepest + 1)).map fun n => g.order.filter (s.depth.get? · == some n))
  := by
  have hmem : ∀ n id, id ∈ g.order.filter (s.depth.get? · == some n) ↔ g.Distance id n := by
    intro n id
    rw [List.mem_filter, beq_iff_eq, h.get?_iff hwaiting]
    exact ⟨fun hid => hid.2, fun hid => ⟨hcf.mem_order_of_pathTo hid.1, hid⟩⟩
  obtain ⟨hmost, id, hid⟩ := h.deepest
  constructor
  case nonempty =>
    intro level hlevel
    obtain ⟨n, hn, rfl⟩ := List.mem_map.mp hlevel
    have hn := List.mem_range.mp hn
    obtain ⟨m, hm⟩ := Nat.exists_eq_add_of_le (Nat.le_of_lt_succ hn)
    have hdist := h.exact _ _ hid
    rw [hm] at hdist
    obtain ⟨id', hid'⟩ := hdist.exists_nearer
    exact List.ne_nil_of_mem ((hmem n id').mpr hid')
  case sublist =>
    intro level hlevel
    obtain ⟨n, -, rfl⟩ := List.mem_map.mp hlevel
    apply List.filter_sublist
  case mem =>
    intro n id
    constructor
    · rintro ⟨level, hlevel, hid⟩
      rw [List.getElem?_map] at hlevel
      obtain ⟨m, hm, rfl⟩ := Option.map_eq_some_iff.mp hlevel
      obtain ⟨hn, rfl⟩ := List.getElem?_eq_some_iff.mp hm
      rw [List.getElem_range] at hid
      exact (hmem n id).mp hid
    · intro hdist
      have hle := hmost id n ((h.get?_iff hwaiting n).mpr hdist)
      refine ⟨_, ?_, (hmem n id).mpr hdist⟩
      rw [List.getElem?_map, List.getElem?_range (by omega)]
      rfl

/-- The levels of a graph are found, and they hold its blocks by distance. -/
theorem ControlFlow.byDistance_levels (h : ControlFlow p g)
    (hentry : g.entry = [] ∨ g.entry ∈ g.order) (hnamed : [] ∉ g.order) :
  ∃ levels, g.levels? = some levels ∧ g.ByDistance levels
  := by
  rw [levels?]
  by_cases hempty : g.entry = []
  · rw [if_pos (by simpa using hempty)]
    refine ⟨[], rfl, by simp, by simp, ?_⟩
    intro n id
    constructor
    · rintro ⟨level, hlevel, -⟩
      cases hlevel
    · intro hdist
      rw [← Nat.zero_add n] at hdist
      obtain ⟨id', hid'⟩ := hdist.exists_nearer
      rw [distance_zero_iff, hempty] at hid'
      exact absurd hid'.2 hnamed
  · rw [if_neg (by simpa using hempty)]
    obtain ⟨s, d, hrun, hwaiting, hsound⟩ :=
      Sweep.exists_run? h (Sweep.sound_start (hentry.resolve_left hempty))
    refine ⟨_, ?_, Sweep.byDistance h hsound hwaiting⟩
    rw [hrun, Option.bind_eq_bind, Option.bind_some, Sweep.foldlM_place?]
    · congr 1
      apply List.ext_getElem?
      intro i
      rw [List.getElem?_mapIdx, List.getElem?_replicate, List.getElem?_map]
      by_cases hi : i < s.deepest + 1
      · simp [hi]
      · simp [hi]
    · intro id n hn
      rw [List.length_replicate]
      exact Nat.lt_succ_of_le (hsound.deepest.1 id n hn)

/-! ### One instruction at a time -/

end Graph

/-- Control can go from the instruction at place `n` to the one at place `n'`: a jump goes on at its
label, and every instruction but an unconditional jump goes on at the next place. -/
inductive Program.GoesTo (p : Program) : Nat → Nat → Prop
  | label {n n' i} : p[n]? = some i → i.kind.isJump → p.labelIndex? i.label = some n' → GoesTo p n n'
  | next {n i} : p[n]? = some i → i.kind ≠ .jump → n + 1 < p.length → GoesTo p n (n + 1)

namespace Graph

variable {p : Program} {n n' : Nat}

/-- Control goes to places of the program only. -/
theorem Follows.lt_length (h : (build p).Follows n n') :
  n' < p.length
  := by
  rw [Follows, blockList_build] at h
  obtain ⟨b, hb, -, hstop, rfl⟩ | ⟨-, -, t, ht, -, -, hstart⟩ := h
  · obtain ⟨⟨a, e⟩, hcut, rfl⟩ := List.mem_map.mp hb
    have hlt := stop_lt_of_mem_cuts hcut
    rw [blockOf_stop] at hstop
    dsimp only at hstop
    omega
  · obtain ⟨⟨a, e⟩, hcut, rfl⟩ := List.mem_map.mp ht
    have hlt := stop_lt_of_mem_cuts hcut
    have hle := start_le_stop_of_mem_cuts hcut
    rw [blockOf_start] at hstart
    dsimp only at hstart
    omega

/-- In the graph of a program control goes where it goes from instruction to instruction. -/
theorem follows_iff_goesTo :
  (build p).Follows n n' ↔ p.GoesTo n n'
  := by
  constructor
  · intro h
    have hlt := h.lt_length
    obtain ⟨i, hi, ⟨hkind, rfl⟩ | ⟨hkind, hlabel⟩⟩ := follows_cases_of_kind h
    · exact .next hi hkind hlt
    · exact .label hi hkind hlabel
  · intro h
    cases h with
    | label hi hkind hlabel => exact follows_label hi hkind hlabel
    | next hi hkind hlt => exact follows_next hi hkind hlt

/-- Control goes through a block from its start to every place of it. -/
theorem follows_through {b : Block} (hb : b ∈ (build p).blockList) (hn : b.start = n)
    (hn' : (n' : Int) ≤ b.stop) (hle : n ≤ n') :
  Relation.ReflTransGen (build p).Follows n n'
  := by
  induction n', hle using Nat.le_induction with
  | base => exact .refl
  | succ m hm ih =>
      apply (ih (by omega)).tail
      exact .inl ⟨b, hb, by omega, by omega, rfl⟩

/-- Blocks that hold the same place are the same. -/
theorem eq_of_holds {b b' : Block} (hb : b ∈ (build p).blockList) (hb' : b' ∈ (build p).blockList)
    (h : b.start ≤ n ∧ (n : Int) ≤ b.stop) (h' : b'.start ≤ n ∧ (n : Int) ≤ b'.stop) :
  b = b'
  := by
  rw [blockList_build] at hb hb'
  obtain ⟨⟨a, e⟩, hcut, rfl⟩ := List.mem_map.mp hb
  obtain ⟨⟨a', e'⟩, hcut', rfl⟩ := List.mem_map.mp hb'
  rw [blockOf_start, blockOf_stop] at h h'
  dsimp only at h h'
  have hat := blockAt?_build (n := n) hcut (by omega) (by omega)
  have hat' := blockAt?_build (n := n) hcut' (by omega) (by omega)
  exact Option.some.inj (hat.symm.trans hat')

/-- The blocks of a program are those of its stretches. -/
theorem exists_stretch {b : Block} (hb : b ∈ (build p).blockList) :
  ∃ m e, (m, e) ∈ cuts p ∧ m ≤ e ∧ b = blockOf p (m, e)
  := by
  rw [blockList_build] at hb
  obtain ⟨⟨m, e⟩, hcut, rfl⟩ := List.mem_map.mp hb
  exact ⟨m, e, hcut, start_le_stop_of_mem_cuts hcut, rfl⟩

/-- A block holds the place at which it starts. -/
theorem start_le_stop {b : Block} (hb : b ∈ (build p).blockList) :
  b.start ≤ b.stop
  := by
  obtain ⟨m, e, -, hle, rfl⟩ := exists_stretch hb
  rw [blockOf_start, blockOf_stop]
  omega

/-- The entry is the block that starts at the first place. -/
theorem id_eq_entry_iff {b : Block} (hb : b ∈ (build p).blockList) :
  b.id = (build p).entry ↔ b.start = 0
  := by
  obtain ⟨m, e, hcut, -, rfl⟩ := exists_stretch hb
  have hne : p ≠ [] := by
    rintro rfl
    cases hcut
  rw [build_entry hne, blockOf_id, blockOf_start]
  constructor
  · intro h
    rw [blockName_injective h]
    rfl
  · intro h
    rw [Int.natCast_eq_zero.mp h]

/-- A path along edges is a way from instruction to instruction. -/
theorem PathTo.reaches {d : Nat} {id : Text} (h : (build p).PathTo d id) {b : Block}
    (hb : b ∈ (build p).blockList) (hid : b.id = id) (hn : b.start = n) :
  Relation.ReflTransGen (build p).Follows 0 n
  := by
  induction h generalizing b n with
  | entry _ =>
      have hzero := (id_eq_entry_iff hb).mp hid
      obtain rfl : n = 0 := by omega
      exact .refl
  | @edge d e _ he ih =>
      obtain ⟨a, ha, -, -, hsource, -⟩ := (controlFlow_build p).exists_ends he
      have hleads : (build p).leads a b :=
        List.any_eq_true.mpr ⟨e, he, by simp [hsource, hid]⟩
      have ⟨m, m', _, hle, heq⟩ := exists_stretch ha
      have hstart : a.start = m := by rw [heq, blockOf_start]
      have hstop : a.stop = m' := by rw [heq, blockOf_stop]
      apply ((ih ha hsource.symm hstart).trans (follows_through ha hstart hstop.ge hle)).tail
      exact .inr ⟨a, ha, b, hb, hleads, hstop, hn⟩

/-- A way from instruction to instruction ends in a block to which a path leads. -/
theorem exists_pathTo (h : Relation.ReflTransGen (build p).Follows 0 n) {b : Block}
    (hb : b ∈ (build p).blockList) (hn : b.start ≤ n ∧ (n : Int) ≤ b.stop) :
  ∃ d, (build p).PathTo d b.id
  := by
  induction h generalizing b with
  | refl =>
      obtain ⟨m, e, _, _, rfl⟩ := exists_stretch hb
      have hzero : (blockOf p (m, e)).start = 0 := by
        rw [blockOf_start] at hn ⊢
        omega
      have hid := (id_eq_entry_iff hb).mpr hzero
      use 0
      rw [pathTo_zero_iff]
      refine ⟨hid, ?_⟩
      rw [← hid, (controlFlow_build p).order]
      exact List.mem_map_of_mem hb
  | @tail k k' _ hstep ih =>
      obtain ⟨b', hb', hstart, hlt, rfl⟩ | ⟨b', hb', t, ht, hleads, hstop, hstart⟩ := hstep
      · obtain rfl := eq_of_holds hb hb' hn ⟨by omega, by omega⟩
        exact ih hb ⟨hstart, by omega⟩
      · have ht_le := start_le_stop ht
        have hb'_le := start_le_stop hb'
        obtain rfl := eq_of_holds hb ht hn ⟨by omega, by omega⟩
        obtain ⟨d, hd⟩ := ih hb' ⟨by omega, by omega⟩
        obtain ⟨edge, hedge, hends⟩ := List.any_eq_true.mp hleads
        rw [Bool.and_eq_true, beq_iff_eq, beq_iff_eq] at hends
        rw [← hends.1] at hd
        rw [← hends.2]
        exact ⟨d + 1, .edge hd hedge⟩

/-! ### The levels of a program's graph -/

/-- The names are those of blocks of the graph, in the order in which the blocks start. -/
def InStartOrder (g : Graph) (ids : List Text) : Prop :=
  ∃ bs : List Block, (∀ b ∈ bs, b ∈ g.blockList) ∧ ids = bs.map (·.id)
    ∧ bs.Pairwise fun b b' => b.start < b'.start

theorem inStartOrder_of_sublist {ids : List Text} (h : ids.Sublist (build p).order) :
  (build p).InStartOrder ids
  := by
  rw [build_order] at h
  obtain ⟨cs, hcs, rfl⟩ := List.sublist_map_iff.mp h
  refine ⟨cs.map (blockOf p), ?_, ?_, ?_⟩
  · intro b hb
    obtain ⟨c, hc, rfl⟩ := List.mem_map.mp hb
    rw [blockList_build]
    exact List.mem_map_of_mem (hcs.subset hc)
  · rw [List.map_map]
    rfl
  · have hstarts : ((cuts p).map (·.1)).Pairwise (· < ·) := by
      rw [map_fst_cuts]
      exact leaders_pairwise p
    rw [List.pairwise_map]
    apply ((List.pairwise_map.mp hstarts).sublist hcs).imp
    intro c c' hlt
    rw [blockOf_start, blockOf_start]
    omega

/-- The levels of the graph list the blocks of the program by their distance from the entry. -/
structure LevelsByDistance (p : Program) (g : Graph) : Prop where
  /-- The search ends, and every name that it comes to has a block. -/
  found : g.levels? = some g.levels
  nonempty : ∀ level ∈ g.levels, level ≠ []
  /-- A level lists its blocks in the order of the program. -/
  ordered : ∀ level ∈ g.levels, g.InStartOrder level
  nodup : ∀ level ∈ g.levels, level.Nodup
  /-- The level of number `d` holds just the blocks at the distance `d`. -/
  mem : ∀ d id, (∃ level, g.levels[d]? = some level ∧ id ∈ level) ↔ g.Distance id d
  /-- The other blocks are those to which no path leads. -/
  unreachable_ordered : g.InStartOrder g.unreachable
  mem_unreachable : ∀ id, id ∈ g.unreachable ↔ id ∈ g.order ∧ ∀ d, ¬ g.PathTo d id
  /-- A block is in a level exactly if control can reach its first instruction. -/
  reached : ∀ b ∈ g.blockList,
    (∃ level ∈ g.levels, b.id ∈ level) ↔ Relation.ReflTransGen p.GoesTo 0 b.start.toNat

theorem nil_notMem_order :
  [] ∉ (build p).order
  := by
  rw [build_order]
  intro h
  obtain ⟨c, -, hc⟩ := List.mem_map.mp h
  cases hc

theorem entry_build_cases :
  (build p).entry = [] ∨ (build p).entry ∈ (build p).order
  := by
  rw [(controlFlow_build p).entry]
  cases (build p).order with
  | nil => exact .inl rfl
  | cons id ids => exact .inr List.mem_cons_self

theorem ByDistance.mem_flatten {levels : List (List Text)} {g : Graph} {id : Text}
    (h : g.ByDistance levels) :
  (∃ level ∈ levels, id ∈ level) ↔ ∃ d, g.PathTo d id
  := by
  constructor
  · rintro ⟨level, hlevel, hid⟩
    obtain ⟨d, hd⟩ := List.mem_iff_getElem?.mp hlevel
    exact ⟨d, ((h.mem d id).mp ⟨level, hd, hid⟩).1⟩
  · rintro ⟨d, hpath⟩
    obtain ⟨d', -, hdist⟩ := hpath.exists_distance
    obtain ⟨level, hlevel, hid⟩ := (h.mem d' id).mpr hdist
    exact ⟨level, List.mem_of_getElem? hlevel, hid⟩

/-- To a block leads a path exactly if control reaches its first instruction. -/
theorem exists_pathTo_iff {b : Block} (hb : b ∈ (build p).blockList) :
  (∃ d, (build p).PathTo d b.id) ↔ Relation.ReflTransGen p.GoesTo 0 b.start.toNat
  := by
  obtain ⟨m, e, -, -, heq⟩ := exists_stretch hb
  have hstart : b.start = b.start.toNat := by
    rw [heq, blockOf_start, Int.toNat_natCast]
  have hle := start_le_stop hb
  constructor
  · rintro ⟨d, hpath⟩
    have hreaches := hpath.reaches hb rfl hstart
    exact Relation.ReflTransGen.mono (fun _ _ => follows_iff_goesTo.mp) _ _ hreaches
  · intro hway
    have hfollows := Relation.ReflTransGen.mono (fun _ _ => follows_iff_goesTo.mpr) _ _ hway
    exact exists_pathTo hfollows hb ⟨by omega, by omega⟩

/-- The levels of a program's graph are its blocks by distance from the entry, and the blocks in
them are those that control reaches from the first instruction. -/
theorem levels_by_distance (p : Program) :
  LevelsByDistance p (build p)
  := by
  obtain ⟨levels, hfound, hlevels⟩ :=
    (controlFlow_build p).byDistance_levels entry_build_cases nil_notMem_order
  have heq : (build p).levels = levels := by
    rw [Graph.levels, hfound]
    rfl
  rw [← heq] at hfound hlevels
  refine ⟨hfound, hlevels.nonempty, ?_, ?_, hlevels.mem, ?_, ?_, ?_⟩
  · intro level hlevel
    exact inStartOrder_of_sublist (hlevels.sublist level hlevel)
  · intro level hlevel
    exact (hlevels.sublist level hlevel).nodup (controlFlow_build p).distinct
  · exact inStartOrder_of_sublist List.filter_sublist
  · intro id
    rw [unreachable, List.mem_filter, List.contains_eq_mem, Bool.not_eq_true',
      decide_eq_false_iff_not, List.mem_flatten, hlevels.mem_flatten, not_exists]
  · intro b hb
    rw [hlevels.mem_flatten, exists_pathTo_iff hb]

end Graph

end ThreeAddress
