import ThreeAddress.Flow.Graph

/-!
# Levels of a graph

The blocks that can be reached from the entry, grouped by their depth in a search that looks at the
blocks in the order in which it sees them first.  Inside a level the blocks keep their order in the
program.
-/

namespace ThreeAddress

namespace Graph

/-- A search through a graph: the names that wait to be looked at, the depth of every name that was
seen, and the greatest depth. -/
structure Sweep where
  waiting : List Text
  depth : Dict Nat
  deepest : Nat := 0

namespace Sweep

/-- The search begins with the entry. -/
def start (entry : Text) : Sweep where
  waiting := [entry]
  depth := (∅ : Dict Nat).insert entry 0

/-- Looks at a successor of a block at depth `d`: if it was not seen before it waits. -/
def see (d : Nat) (s : Sweep) (id : Text) : Sweep :=
  if s.depth.contains id then s
  else
    { waiting := s.waiting ++ [id]
      depth := s.depth.insert id (d + 1)
      deepest := max s.deepest (d + 1) }

/-- Looks at all successors of the block named `id`, where `rest` waits behind it. -/
def step (s : Sweep) (id : Text) (rest : List Text) (b : Block) : Sweep :=
  b.succs.foldl (see ((s.depth.get? id).getD 0)) { s with waiting := rest }

/-- How many times names that were not seen stand among the successors of blocks. -/
def unseen (g : Graph) (s : Sweep) : Nat :=
  (g.blocks.entries.flatMap (·.2.succs)).countP fun id => !s.depth.contains id

/-- What has not been looked at; a name seen for the first time waits. -/
def remaining (g : Graph) (s : Sweep) : Nat := s.unseen g + s.waiting.length

theorem countP_lt_of_mem {p q : Text → Bool} {ids : List Text} {id : Text}
    (hle : ∀ id ∈ ids, p id = true → q id = true) (hid : id ∈ ids) (hp : p id = false)
    (hq : q id = true) :
  ids.countP p < ids.countP q
  := by
  induction ids with
  | nil => cases hid
  | cons a as ih =>
      have hle' : as.countP p ≤ as.countP q :=
        List.countP_mono_left fun id h => hle id (List.mem_cons_of_mem _ h)
      rw [List.countP_cons, List.countP_cons]
      obtain rfl | h := List.mem_cons.mp hid
      · simp [hp, hq]
        omega
      · have hlt := ih (fun id h => hle id (List.mem_cons_of_mem _ h)) h
        have ha := hle a List.mem_cons_self
        cases hpa : p a with
        | true => simp [ha hpa, hlt]
        | false =>
            cases q a with
            | true => simp; omega
            | false => simp [hlt]

/-- A name seen now was not seen before, so it is one less to see. -/
theorem unseen_insert_lt {g : Graph} {s : Sweep} {b : Text × Block} {id : Text} (n : Nat)
    (hb : b ∈ g.blocks.entries) (hid : id ∈ b.2.succs) (hnot : ¬ s.depth.contains id = true) :
  unseen g { s with depth := s.depth.insert id n } < unseen g s
  := by
  have hinsert : ∀ id', (s.depth.insert id n).contains id'
      = (s.depth.contains id' || id == id') := by
    intro id'
    rw [Dict.insert, if_neg hnot]
    simp [Dict.contains]
  simp only [unseen, hinsert]
  apply countP_lt_of_mem _ (List.mem_flatMap.mpr ⟨b, hb, hid⟩)
  · simp
  · simp [hnot]
  · intro id' _ h
    rw [Bool.not_or, Bool.and_eq_true] at h
    exact h.1

theorem remaining_see_le {g : Graph} {s : Sweep} {b : Text × Block} {id : Text} (d : Nat)
    (hb : b ∈ g.blocks.entries) (hid : id ∈ b.2.succs) :
  (s.see d id).remaining g ≤ s.remaining g
  := by
  rw [see]
  split
  · apply Nat.le_refl
  · next hnot =>
    have hlt := unseen_insert_lt (d + 1) hb hid hnot
    simp only [remaining, List.length_append, List.length_singleton]
    simp only [unseen] at hlt ⊢
    omega

theorem remaining_step_lt {g : Graph} {s : Sweep} {id : Text} {rest : List Text} {b : Block}
    (hwaiting : s.waiting = id :: rest) (hb : g.block? id = some b) :
  (s.step id rest b).remaining g < s.remaining g
  := by
  obtain ⟨e, he, rfl⟩ := Option.map_eq_some_iff.mp hb
  have hmem := List.mem_of_find?_eq_some he
  have hfold : ∀ (d : Nat) (ids : List Text) (s : Sweep), (∀ id ∈ ids, id ∈ e.2.succs) →
      (ids.foldl (see d) s).remaining g ≤ s.remaining g := by
    intro d ids
    induction ids with
    | nil => exact fun s _ => Nat.le_refl _
    | cons id ids ih =>
        intro s hids
        obtain ⟨hid, hids⟩ := List.forall_mem_cons.mp hids
        exact Nat.le_trans (ih _ hids) (remaining_see_le d hmem hid)
  apply Nat.lt_of_le_of_lt (hfold _ _ _ fun _ h => h)
  simp only [remaining, unseen, hwaiting, List.length_cons]
  omega

/-- The search until nothing waits; it is `none` where a name that waits has no block. -/
def run? (g : Graph) (s : Sweep) : Option Sweep :=
  match hwaiting : s.waiting with
  | [] => some s
  | id :: rest =>
    match hb : g.block? id with
    | none => none
    | some b =>
      have := remaining_step_lt hwaiting hb
      run? g (s.step id rest b)
termination_by s.remaining g

/-- Puts a name into the level of its depth, if it has one; it is `none` if there is no such
level. -/
def place? (s : Sweep) (levels : List (List Text)) (id : Text) : Option (List (List Text)) :=
  match s.depth.get? id with
  | none => some levels
  | some d => if d < levels.length then some (levels.modify d (· ++ [id])) else none

end Sweep

/-- The levels of a graph.  It is `none` if the search comes to a name without a block. -/
def levels? (g : Graph) : Option (List (List Text)) :=
  if g.entry.isEmpty then some []
  else do
    let s ← (Sweep.start g.entry).run? g
    g.order.foldlM s.place? (List.replicate (s.deepest + 1) [])

/-- The levels of a graph whose names have blocks. -/
def levels (g : Graph) : List (List Text) := g.levels?.getD []

/-- The blocks that cannot be reached from the entry. -/
def unreachable (g : Graph) : List Text :=
  let reached := g.levels.flatten
  g.order.filter fun id => !reached.contains id

end Graph

end ThreeAddress
