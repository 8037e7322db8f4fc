/-!
# Sieves

A list is sieved where it stands: its elements are looked at in turn, and each one that is kept
moves up behind those kept before.  A state goes from element to element.
-/

namespace ThreeAddress

/-- Elements that are sieved where they stand.  The first `kept` cells hold those kept so far, and
the cells from `read` on were not looked at yet. -/
structure Sieve (α σ : Type) (n : Nat) where
  cells : Vector α n
  read : Nat := 0
  kept : Nat := 0
  kept_le_read : kept ≤ read := by decide
  state : σ

namespace Sieve

variable {α σ : Type} {n : Nat}

/-- A sieve with elements of which none was looked at. -/
def ofList (as : List α) (state : σ) : Sieve α σ as.length where
  cells := ⟨as.toArray, List.size_toArray⟩
  state := state

/-- Looks at an element, where `f` tells whether it is kept.  If it is, it moves up behind those
kept so far. -/
def next (f : σ → α → Bool × σ) (s : Sieve α σ n) (h : s.read < n) : Sieve α σ n :=
  match f s.state s.cells[s.read] with
  | (false, state) =>
    { s with read := s.read + 1, kept_le_read := Nat.le_succ_of_le s.kept_le_read, state }
  | (true, state) =>
    { cells := s.cells.set s.kept s.cells[s.read] (Nat.lt_of_le_of_lt s.kept_le_read h)
      read := s.read + 1
      kept := s.kept + 1
      kept_le_read := Nat.succ_le_succ s.kept_le_read
      state }

theorem read_next (f : σ → α → Bool × σ) (s : Sieve α σ n) (h : s.read < n) :
  (s.next f h).read = s.read + 1
  := by
  rw [next]
  split
  · rfl
  · rfl

/-- Looks at all elements that are left. -/
def run (f : σ → α → Bool × σ) : (left : Nat) → (s : Sieve α σ n) → s.read + left = n → Sieve α σ n
  | 0, s, _ => s
  | left + 1, s, h =>
    have hread : s.read < n := by omega
    run f left (s.next f hread) (by rw [read_next]; omega)

/-- The elements kept. -/
def items (s : Sieve α σ n) : List α := s.cells.toList.take s.kept

/-- The elements that were not looked at yet. -/
def unread (s : Sieve α σ n) : List α := s.cells.toList.drop s.read

end Sieve

/-- Sieves a list: what is kept, and the state at the end. -/
def sift {α σ : Type} (f : σ → α → Bool × σ) (state : σ) (as : List α) : List α × σ :=
  let s := (Sieve.ofList as state).run f as.length (Nat.zero_add _)
  (s.items, s.state)

/-! ### What a sieve keeps -/

namespace Sieve

variable {α σ : Type} {n : Nat} {f : σ → α → Bool × σ} {s : Sieve α σ n}

/-- Cells that are not read yet are left alone. -/
theorem unread_eq (h : s.read < n) :
  s.unread = s.cells[s.read] :: (s.next f h).unread
  := by
  have hle := s.kept_le_read
  have hread : s.read < s.cells.toList.length := by rwa [Vector.length_toList]
  rw [unread, List.drop_eq_getElem_cons hread, Vector.getElem_toList, unread, next]
  split
  · rfl
  · -- The cell that is written to lies no further back than the one that was read.
    dsimp only
    rw [Vector.toList_set, List.drop_set_of_lt (by omega)]

theorem items_next (h : s.read < n) :
  (s.next f h).items
      = s.items ++ (if (f s.state s.cells[s.read]).1 then [s.cells[s.read]] else [])
    ∧ (s.next f h).state = (f s.state s.cells[s.read]).2
  := by
  have hkept : s.kept < s.cells.toList.length := by
    rw [Vector.length_toList]
    exact Nat.lt_of_le_of_lt s.kept_le_read h
  rw [next]
  split
  · next hf =>
    rw [hf]
    exact ⟨(List.append_nil _).symm, rfl⟩
  · next hf =>
    rw [hf]
    refine ⟨?_, rfl⟩
    rw [items, items]
    dsimp only
    rw [Vector.toList_set, List.take_succ_eq_append_getElem (by rwa [List.length_set]),
      List.take_set_of_le (Nat.le_refl _), List.getElem_set_self, if_pos rfl]

end Sieve

/-- One element after the other is kept or not. -/
def siftEach {α σ : Type} (f : σ → α → Bool × σ) : σ → List α → List α × σ
  | state, [] => ([], state)
  | state, a :: as =>
    let r := siftEach f (f state a).2 as
    (if (f state a).1 then a :: r.1 else r.1, r.2)

/-- To sieve a list where it stands keeps what is kept when its elements are gone through. -/
theorem sift_eq_siftEach {α σ : Type} (f : σ → α → Bool × σ) (state : σ) (as : List α) :
  sift f state as = siftEach f state as
  := by
  have hmain : ∀ (left : Nat) (s : Sieve α σ as.length) (h : s.read + left = as.length),
      (s.run f left h).items = s.items ++ (siftEach f s.state s.unread).1
        ∧ (s.run f left h).state = (siftEach f s.state s.unread).2 := by
    intro left
    induction left with
    | zero =>
        intro s h
        have hnone : s.unread = [] := by
          apply List.drop_eq_nil_of_le
          rw [Vector.length_toList]
          omega
        rw [hnone]
        exact ⟨(List.append_nil _).symm, rfl⟩
    | succ left ih =>
        intro s h
        have hread : s.read < as.length := by omega
        obtain ⟨hitems, hstate⟩ := Sieve.items_next (f := f) hread
        obtain ⟨hitems', hstate'⟩ := ih (s.next f hread) (by rw [Sieve.read_next]; omega)
        rw [hitems, hstate] at hitems'
        rw [hstate] at hstate'
        rw [Sieve.run, Sieve.unread_eq (f := f) hread, siftEach]
        refine ⟨hitems'.trans ?_, hstate'⟩
        rw [List.append_assoc]
        congr 1
        dsimp only
        split
        · rfl
        · rfl
  obtain ⟨hitems, hstate⟩ := hmain as.length (Sieve.ofList as state) (Nat.zero_add _)
  exact Prod.ext hitems hstate

end ThreeAddress
