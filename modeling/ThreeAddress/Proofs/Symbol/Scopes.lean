import Mathlib.Data.List.Induction
import Mathlib.Data.List.Nodup
import Mathlib.Tactic.Common
import ThreeAddress.Proofs.Dict
import ThreeAddress.Symbol.Table

/-!
# Symbol tables as stacks of scopes

`Scopes` is a stack of frames, one for each open scope, that also remembers every declaration ever
made and every scope ever opened.  Entering a scope pushes an empty frame, leaving one pops a frame,
and a declaration goes into the innermost frame unless the frame has the name already.  A table that
goes through the same actions agrees with the stack in everything it answers, although it keeps one
list of symbols and one stack for each name, and decides by numbers of scopes what to drop from
both.

The table stays in step with the frames because its symbols are those of the frames from the
outermost to the innermost, and the stack of a name holds the symbols of the name in this order
(`SymbolStacks.Holds`).  The scopes that are open have rising numbers, so what is dropped when a
scope is left is its frame; the names in a frame are distinct, so what is popped for each is on top.
-/

namespace ThreeAddress

/-! ### Stacks of scopes -/

/-- The declarations of one scope, in the order in which they were made.  No name is declared
twice. -/
structure Frame where
  scope : Nat
  symbols : List Symbol
  nodup : (symbols.map Symbol.name).Nodup

namespace Frame

/-- The frame of a scope that was just opened. -/
def empty (scope : Nat) : Frame := ⟨scope, [], List.nodup_nil⟩

/-- Whether the scope declares a name. -/
def Holds (f : Frame) (name : Text) : Prop := name ∈ f.symbols.map Symbol.name

instance (f : Frame) (name : Text) : Decidable (f.Holds name) :=
  inferInstanceAs (Decidable (name ∈ f.symbols.map Symbol.name))

/-- The frame with one more declaration. -/
def add (f : Frame) (s : Symbol) (h : ¬ f.Holds s.name) : Frame :=
  ⟨f.scope, f.symbols ++ [s], by
    rw [List.map_append, List.nodup_append]
    refine ⟨f.nodup, List.nodup_singleton _, ?_⟩
    rintro name hname _ hs rfl
    rw [List.map_singleton, List.mem_singleton] at hs
    apply h
    rwa [Holds, ← hs]⟩

/-- What the scope declares under a name. -/
def find? (f : Frame) (name : Text) : Option Symbol := f.symbols.find? (·.name == name)

theorem find?_eq_some_iff {f : Frame} {name : Text} {s : Symbol} :
  f.find? name = some s ↔ s ∈ f.symbols ∧ s.name = name
  := by
  constructor
  · intro h
    use List.mem_of_find?_eq_some h
    simpa using List.find?_some h
  · rintro ⟨hs, rfl⟩
    have hsome : (f.find? s.name).isSome := by
      rw [find?, List.find?_isSome]
      use s, hs
      simp
    obtain ⟨s', hs'⟩ := Option.isSome_iff_exists.mp hsome
    have hname : s'.name = s.name := by simpa using List.find?_some hs'
    rw [hs', List.inj_on_of_nodup_map f.nodup (List.mem_of_find?_eq_some hs') hs hname]

theorem holds_iff {f : Frame} {name : Text} :
  f.Holds name ↔ ∃ s, f.find? name = some s
  := by
  simp only [Holds, List.mem_map, find?_eq_some_iff]

/-- Since no name is declared twice, the last declaration of a name is the only one. -/
theorem find?_reverse (f : Frame) (name : Text) :
  f.symbols.reverse.find? (·.name == name) = f.find? name
  := by
  cases h : f.symbols.reverse.find? (·.name == name) with
  | none =>
      symm
      rw [find?, List.find?_eq_none]
      intro s hs
      apply List.find?_eq_none.mp h s (List.mem_reverse.mpr hs)
  | some s =>
      symm
      apply find?_eq_some_iff.mpr
      use List.mem_reverse.mp (List.mem_of_find?_eq_some h)
      simpa using List.find?_some h

end Frame

/-- The open scopes, every declaration ever made with the oldest first, and every scope ever opened
with the newest first. -/
structure Scopes where
  inner : Frame := .empty 0
  outer : List Frame := []
  declared : List Symbol := []
  opened : List Nat := [0]

/-- What is done to a table. -/
inductive TableAction where
  | enter
  | exit
  | declareVar (name : Text) (type : DataType)
  | declareFun (name : Text) (type : DataType) (params : List DataType)
deriving DecidableEq, Repr

namespace Scopes

/-- The open scopes, the innermost first. -/
def frames (m : Scopes) : List Frame := m.inner :: m.outer

/-- The declarations of the open scopes, from the outermost to the innermost. -/
def live (m : Scopes) : List Symbol := m.frames.reverse.flatMap Frame.symbols

/-- The declaration of a name in the innermost scope that has one. -/
def lookup (m : Scopes) (name : Text) : Option Symbol := m.frames.findSome? (·.find? name)

/-- Whether a scope is open. -/
def isOpen (m : Scopes) (scope : Nat) : Bool := m.frames.any (·.scope == scope)

/-- Opens a scope whose number counts the scopes opened before it. -/
def enter (m : Scopes) : Scopes :=
  { m with
    inner := .empty m.opened.length
    outer := m.inner :: m.outer
    opened := m.opened.length :: m.opened }

/-- Leaves the innermost scope, unless it is the only one. -/
def exit (m : Scopes) : Scopes :=
  match m.outer with
  | [] => m
  | f :: outer => { m with inner := f, outer }

/-- Declares a symbol in the innermost scope, unless the scope declares its name already. -/
def declare (m : Scopes) (s : Symbol) : Scopes :=
  if h : m.inner.Holds s.name then m
  else { m with inner := m.inner.add s h, declared := m.declared ++ [s] }

/-- The number of variables declared so far. -/
def varCount (m : Scopes) : Nat := m.declared.countP (! ·.isFunction)

/-- What an action does to the scopes. -/
def act (m : Scopes) : TableAction → Scopes
  | .enter => m.enter
  | .exit => m.exit
  | .declareVar name type =>
    m.declare { name, type, scope := m.inner.scope, address := some m.varCount }
  | .declareFun name type params =>
    m.declare { name, type, scope := m.inner.scope, isFunction := true, params }

/-- The scopes after a history of actions. -/
def after (history : List TableAction) : Scopes := history.foldl act {}

end Scopes

namespace SymbolTable

/-- What an action does to a table: a declaration that is refused leaves it as it is. -/
def act (t : SymbolTable) : TableAction → SymbolTable
  | .enter => t.enterScope
  | .exit => t.exitScope
  | .declareVar name type => (t.declareVariable name type).toOption.getD t
  | .declareFun name type params => (t.declareFunction name type params).toOption.getD t

/-- The table after a history of actions. -/
def after (history : List TableAction) : SymbolTable := history.foldl act {}

end SymbolTable

/-! ### What the stack keeps -/

namespace Scopes

variable {m : Scopes}

/-- What holds of the scopes after every history. -/
structure Regular (m : Scopes) : Prop where
  decreasing : (m.frames.map Frame.scope).Pairwise (· > ·)
  known : ∀ f ∈ m.frames, f.scope < m.opened.length
  own : ∀ f ∈ m.frames, ∀ s ∈ f.symbols, s.scope = f.scope
  placed : ∀ s ∈ m.declared, s.scope < m.opened.length
  order : m.live = m.declared.filter fun s => m.isOpen s.scope
  counted : m.opened = (List.range m.opened.length).reverse
  addressed : ∀ before s later, m.declared = before ++ s :: later →
    s.address = if s.isFunction then none else some (before.countP (! ·.isFunction))

theorem live_eq (m : Scopes) :
  m.live = m.outer.reverse.flatMap Frame.symbols ++ m.inner.symbols
  := by
  simp [live, frames]

theorem isOpen_iff {scope : Nat} :
  m.isOpen scope ↔ ∃ f ∈ m.frames, f.scope = scope
  := by
  simp [isOpen, List.any_eq_true]

theorem regular_empty :
  Regular {}
  := by
  constructor
  · apply List.pairwise_singleton
  · intro f hf
    rw [List.mem_singleton.mp hf]
    apply Nat.zero_lt_one
  · intro f hf s hs
    rw [List.mem_singleton.mp hf] at hs
    cases hs
  · intro s hs
    cases hs
  · rfl
  · rfl
  · intro before s later h
    cases before <;> cases h

theorem length_opened_act (m : Scopes) (a : TableAction) :
  m.opened.length ≤ (m.act a).opened.length
  := by
  cases a with
  | enter => apply Nat.le_succ
  | exit =>
      rw [act, exit]
      split
      · apply Nat.le_refl
      · apply Nat.le_refl
  | declareVar name type | declareFun name type params =>
      rw [act, declare]
      split
      · apply Nat.le_refl
      · apply Nat.le_refl

/-- Scopes are only ever added to those that were opened. -/
theorem length_opened_after {earlier history : List TableAction} (h : earlier <+: history) :
  (after earlier).opened.length ≤ (after history).opened.length
  := by
  obtain ⟨later, rfl⟩ := h
  induction later using List.reverseRecOn with
  | nil =>
      apply Nat.le_of_eq
      rw [List.append_nil]
  | append_singleton later a ih =>
      apply Nat.le_trans ih
      rw [← List.append_assoc, after, after, List.foldl_concat]
      apply length_opened_act

theorem Regular.enter (h : m.Regular) :
  m.enter.Regular
  := by
  have hframes : m.enter.frames = .empty m.opened.length :: m.frames := rfl
  constructor
  · rw [hframes, List.map_cons, List.pairwise_cons]
    refine ⟨?_, h.decreasing⟩
    intro scope hscope
    obtain ⟨f, hf, rfl⟩ := List.mem_map.mp hscope
    apply h.known f hf
  · rw [hframes]
    intro f hf
    obtain rfl | hf := List.mem_cons.mp hf
    · apply Nat.lt_succ_self
    · apply Nat.lt_succ_of_lt (h.known f hf)
  · rw [hframes]
    intro f hf s hs
    obtain rfl | hf := List.mem_cons.mp hf
    · cases hs
    · apply h.own f hf s hs
  · intro s hs
    apply Nat.lt_succ_of_lt (h.placed s hs)
  · have hlive : m.enter.live = m.live := by
      rw [live, hframes, List.reverse_cons, List.flatMap_append]
      simp [Frame.empty, live]
    rw [hlive, h.order]
    apply List.filter_congr
    intro s hs
    -- No declaration made so far stands in the new scope.
    have hne : m.opened.length ≠ s.scope := by
      have := h.placed s hs
      omega
    simp [isOpen, hframes, Frame.empty, hne]
  · rw [Scopes.enter]
    simp only [List.length_cons, List.range_succ, List.reverse_append, List.reverse_cons,
      List.reverse_nil, List.nil_append, List.singleton_append, ← h.counted]
  · apply h.addressed

section

variable {g : Frame} {outer : List Frame} {s : Symbol}

/-- What is declared outside the innermost scope is not deeper than the scope around that. -/
theorem Regular.scope_le (h : m.Regular) (houter : m.outer = g :: outer)
    (hs : s ∈ m.outer.reverse.flatMap Frame.symbols) :
  s.scope ≤ g.scope
  := by
  have hdecreasing := h.decreasing
  rw [frames, houter, List.map_cons, List.map_cons, List.pairwise_cons, List.pairwise_cons]
    at hdecreasing
  obtain ⟨f, hf, hs⟩ := List.mem_flatMap.mp hs
  rw [List.mem_reverse] at hf
  rw [h.own f (List.mem_cons_of_mem _ hf) s hs]
  rw [houter] at hf
  obtain rfl | hf := List.mem_cons.mp hf
  · apply Nat.le_refl
  · apply Nat.le_of_lt (hdecreasing.2.1 _ (List.mem_map_of_mem hf))

/-- What is declared in the innermost scope is deeper than the scope around that. -/
theorem Regular.lt_scope (h : m.Regular) (houter : m.outer = g :: outer) (hs : s ∈ m.inner.symbols) :
  g.scope < s.scope
  := by
  have hdecreasing := h.decreasing
  rw [frames, houter, List.map_cons, List.map_cons, List.pairwise_cons] at hdecreasing
  rw [h.own m.inner List.mem_cons_self s hs]
  apply hdecreasing.1 _ List.mem_cons_self

end

theorem Regular.exit (h : m.Regular) :
  m.exit.Regular
  := by
  cases houter : m.outer with
  | nil =>
      rw [Scopes.exit, houter]
      apply h
  | cons g outer =>
      have hexit : m.exit = { m with inner := g, outer } := by rw [Scopes.exit, houter]
      have hframes : m.frames = m.inner :: m.exit.frames := by rw [hexit, frames, houter, frames]
      have hdecreasing := h.decreasing
      rw [hframes, List.map_cons, List.pairwise_cons] at hdecreasing
      have hopened : m.exit.opened = m.opened := by rw [hexit]
      have hdeclared : m.exit.declared = m.declared := by rw [hexit]
      have hmem : ∀ f ∈ m.exit.frames, f ∈ m.frames := by
        intro f hf
        rw [hframes]
        apply List.mem_cons_of_mem _ hf
      constructor
      · apply hdecreasing.2
      · rw [hopened]
        intro f hf
        apply h.known f (hmem f hf)
      · intro f hf
        apply h.own f (hmem f hf)
      · rw [hopened, hdeclared]
        apply h.placed
      · -- The inner scope is closed, and it is the only one that is.
        have hlive : m.live = m.exit.live ++ m.inner.symbols := by
          rw [live, hframes, List.reverse_cons, List.flatMap_append]
          simp [live]
        have hkept : m.exit.live.filter (fun s => m.exit.isOpen s.scope) = m.exit.live := by
          rw [List.filter_eq_self]
          intro s hs
          obtain ⟨f, hf, hs⟩ := List.mem_flatMap.mp hs
          rw [List.mem_reverse] at hf
          apply isOpen_iff.mpr ⟨f, hf, (h.own f (hmem f hf) s hs).symm⟩
        have hdropped : m.inner.symbols.filter (fun s => m.exit.isOpen s.scope) = [] := by
          rw [List.filter_eq_nil_iff]
          intro s hs hopen
          obtain ⟨f, hf, hscope⟩ := isOpen_iff.mp hopen
          have hlt := hdecreasing.1 _ (List.mem_map_of_mem hf)
          rw [hscope, h.own _ List.mem_cons_self s hs] at hlt
          apply Nat.lt_irrefl _ hlt
        have hfilter := congrArg (List.filter fun s => m.exit.isOpen s.scope) h.order
        rw [hlive, List.filter_append, hkept, hdropped, List.append_nil, List.filter_filter]
          at hfilter
        rw [hfilter, hdeclared]
        apply List.filter_congr
        intro s _
        rw [Bool.and_eq_left_iff_imp, isOpen_iff, isOpen_iff]
        rintro ⟨f, hf, hscope⟩
        exact ⟨f, hmem f hf, hscope⟩
      · rw [hopened]
        apply h.counted
      · rw [hdeclared]
        apply h.addressed

/-- A declaration keeps the scopes regular, if the symbol stands in the innermost scope and, as a
variable, has the next free address. -/
theorem Regular.declare (h : m.Regular) {s : Symbol} (hscope : s.scope = m.inner.scope)
    (haddress : s.address = if s.isFunction then none else some m.varCount) :
  (m.declare s).Regular
  := by
  rw [Scopes.declare]
  split
  · apply h
  · next hnot =>
    have hopen : ∀ scope, ({ m with
        inner := m.inner.add s hnot, declared := m.declared ++ [s] } : Scopes).isOpen scope
        = m.isOpen scope := fun _ => rfl
    constructor
    · apply h.decreasing
    · intro f hf
      obtain rfl | hf := List.mem_cons.mp hf
      · apply h.known m.inner List.mem_cons_self
      · apply h.known f (List.mem_cons_of_mem _ hf)
    · intro f hf s' hs'
      obtain rfl | hf := List.mem_cons.mp hf
      · obtain hs' | hs' := List.mem_append.mp hs'
        · apply h.own m.inner List.mem_cons_self s' hs'
        · rw [List.mem_singleton.mp hs', hscope]
          rfl
      · apply h.own f (List.mem_cons_of_mem _ hf) s' hs'
    · intro s' hs'
      obtain hs' | hs' := List.mem_append.mp hs'
      · apply h.placed s' hs'
      · rw [List.mem_singleton.mp hs', hscope]
        apply h.known m.inner List.mem_cons_self
    · have hinner : m.isOpen s.scope = true := isOpen_iff.mpr ⟨_, List.mem_cons_self, hscope.symm⟩
      simp only [hopen, List.filter_append, ← h.order]
      rw [live_eq, live_eq]
      simp [Frame.add, hinner]
    · apply h.counted
    · intro before s' later heq
      obtain ⟨rest, hbefore, hrest⟩ | ⟨rest, hbefore, hrest⟩ := List.append_eq_append_iff.mp heq
      · -- The new declaration is the last one.
        obtain ⟨rfl, hnew⟩ : rest = [] ∧ s = s' := by
          cases rest with
          | nil => exact ⟨rfl, (List.cons.inj hrest).1⟩
          | cons _ rest => simp at hrest
        rw [List.append_nil] at hbefore
        rw [← hnew, haddress, hbefore]
        rfl
      · cases rest with
        | nil =>
            rw [List.append_nil] at hbefore
            obtain ⟨rfl, -⟩ := List.cons.inj hrest
            rw [haddress, varCount, hbefore]
        | cons x rest =>
            obtain ⟨rfl, -⟩ := List.cons.inj hrest
            apply h.addressed before s' rest hbefore

theorem Regular.act (h : m.Regular) (a : TableAction) :
  (m.act a).Regular
  := by
  cases a with
  | enter => apply h.enter
  | exit => apply h.exit
  | declareVar name type => apply h.declare rfl rfl
  | declareFun name type params => apply h.declare rfl rfl

/-- The innermost scope holds the names that were declared in it. -/
theorem Regular.holds_inner_iff (h : m.Regular) {name : Text} :
  m.inner.Holds name ↔ ∃ s ∈ m.declared, s.scope = m.inner.scope ∧ s.name = name
  := by
  constructor
  · intro hname
    obtain ⟨s, hs, rfl⟩ := List.mem_map.mp hname
    have hlive : s ∈ m.live := by
      rw [live_eq]
      apply List.mem_append_right _ hs
    rw [h.order] at hlive
    exact ⟨s, List.mem_of_mem_filter hlive, h.own _ List.mem_cons_self s hs, rfl⟩
  · rintro ⟨s, hs, hscope, rfl⟩
    have hlive : s ∈ m.live := by
      rw [h.order, List.mem_filter]
      exact ⟨hs, isOpen_iff.mpr ⟨_, List.mem_cons_self, hscope.symm⟩⟩
    rw [live_eq, List.mem_append] at hlive
    obtain houter | hinner := hlive
    · -- The scopes further out have smaller numbers.
      obtain ⟨f, hf, hs⟩ := List.mem_flatMap.mp houter
      rw [List.mem_reverse] at hf
      have hlt := (List.pairwise_cons.mp h.decreasing).1 _ (List.mem_map_of_mem hf)
      rw [← h.own f (List.mem_cons_of_mem _ hf) s hs, hscope] at hlt
      cases Nat.lt_irrefl _ hlt
    · apply List.mem_map_of_mem hinner

/-- Variables have the addresses from `0` on, in the order of their declaration. -/
theorem Regular.addresses_nodup (h : m.Regular) :
  (m.declared.filterMap Symbol.address).Nodup
  := by
  have hmain : ∀ before later, m.declared = before ++ later →
      before.filterMap Symbol.address = List.range (before.countP (! ·.isFunction)) := by
    intro before
    induction before using List.reverseRecOn with
    | nil =>
        intro _ _
        rfl
    | append_singleton before s ih =>
        intro later heq
        rw [List.append_assoc, List.singleton_append] at heq
        rw [List.filterMap_append, ih _ heq, List.countP_append]
        have haddress := h.addressed before s later heq
        cases hfunction : s.isFunction with
        | true => simp [haddress, hfunction]
        | false => simp [haddress, hfunction, List.range_succ]
  rw [hmain m.declared [] (List.append_nil _).symm]
  apply List.nodup_range

end Scopes

/-! ### Stacks of names -/

namespace SymbolStacks

variable {byName : SymbolStacks} {symbols outer inner : List Symbol} {scope : Nat}

/-- The stack of every name holds the symbols of the name in their order, and no empty stack is
kept. -/
structure Holds (byName : SymbolStacks) (symbols : List Symbol) : Prop where
  of : ∀ name, byName.of name = symbols.filter (·.name == name)
  kept : ∀ name, byName.get? name ≠ some []

theorem holds_nil :
  Holds ∅ []
  := ⟨fun _ => rfl, fun _ => nofun⟩

theorem of_insert (byName : SymbolStacks) (name : Text) (stack : List Symbol) (name' : Text) :
  SymbolStacks.of (byName.insert name stack) name' = if name = name' then stack else byName.of name'
  := by
  rw [SymbolStacks.of, SymbolStacks.of, Dict.get?_insert]
  split
  · rfl
  · rfl

theorem of_erase (byName : SymbolStacks) (name name' : Text) :
  SymbolStacks.of (byName.erase name) name' = if name = name' then [] else byName.of name'
  := by
  rw [SymbolStacks.of, SymbolStacks.of, Dict.get?_erase]
  split
  · rfl
  · rfl

theorem Holds.push (h : byName.Holds symbols) (s : Symbol) :
  (byName.push s).Holds (symbols ++ [s])
  := by
  constructor
  · intro name
    rw [SymbolStacks.push, of_insert, List.filter_append, h.of, h.of]
    by_cases hname : s.name = name
    · simp [hname]
    · simp [hname]
  · intro name
    rw [SymbolStacks.push, Dict.get?_insert]
    split
    · simp
    · apply h.kept

/-- The last symbol of a name is on top of its stack, and it is popped. -/
theorem Holds.pop? {s : Symbol} (h : byName.Holds (outer ++ s :: inner))
    (hlast : s.name ∉ inner.map Symbol.name) :
  ∃ byName', byName.pop? s.name = some byName' ∧ byName'.Holds (outer ++ inner)
  := by
  have hnone : inner.filter (·.name == s.name) = [] := by
    rw [List.filter_eq_nil_iff]
    intro s' hs' hname
    apply hlast
    rw [← beq_iff_eq.mp hname]
    exact List.mem_map_of_mem hs'
  have hof : byName.of s.name = outer.filter (·.name == s.name) ++ [s] := by
    rw [h.of, List.filter_append, List.filter_cons, hnone, beq_self_eq_true, if_pos rfl]
  have hother : ∀ name, s.name ≠ name →
      byName.of name = (outer ++ inner).filter (·.name == name) := by
    intro name hname
    rw [h.of, List.filter_append, List.filter_cons, if_neg (by simpa using hname),
      List.filter_append]
  rw [SymbolStacks.pop?, hof, if_neg (by simp)]
  refine ⟨_, rfl, ?_⟩
  rw [List.dropLast_concat]
  by_cases hempty : outer.filter (·.name == s.name) = []
  · rw [hempty, List.isEmpty_nil, if_pos rfl]
    constructor
    · intro name
      rw [of_erase]
      split
      · next hname =>
        rw [← hname, List.filter_append, hempty, hnone]
        rfl
      · next hname => exact hother name hname
    · intro name
      rw [Dict.get?_erase]
      split
      · simp
      · apply h.kept
  · rw [if_neg (by simpa using hempty)]
    constructor
    · intro name
      rw [of_insert]
      split
      · next hname => rw [← hname, List.filter_append, hnone, List.append_nil]
      · next hname => exact hother name hname
    · intro name
      rw [Dict.get?_insert]
      split
      · exact fun h => hempty (Option.some.inj h)
      · apply h.kept

/-- Symbols that are not deeper stay, and the stacks are left alone. -/
theorem siftEach_leave_outer (byName : Option SymbolStacks) (houter : ∀ s ∈ outer, s.scope ≤ scope)
    (rest : List Symbol) :
  siftEach (leave scope) byName (outer ++ rest)
    = (outer ++ (siftEach (leave scope) byName rest).1, (siftEach (leave scope) byName rest).2)
  := by
  induction outer with
  | nil => rfl
  | cons s outer ih =>
      obtain ⟨hs, houter⟩ := List.forall_mem_cons.mp houter
      rw [List.cons_append, siftEach, leave, if_pos hs, ih houter]
      rfl

/-- Deeper symbols with distinct names are all dropped, and each of them is on top of its stack
then. -/
theorem Holds.siftEach_leave_inner (h : byName.Holds (outer ++ inner))
    (hinner : ∀ s ∈ inner, scope < s.scope) (hnodup : (inner.map Symbol.name).Nodup) :
  ∃ byName', siftEach (leave scope) (some byName) inner = ([], some byName') ∧ byName'.Holds outer
  := by
  induction inner generalizing byName with
  | nil => exact ⟨byName, rfl, by rwa [List.append_nil] at h⟩
  | cons s inner ih =>
      obtain ⟨hs, hinner⟩ := List.forall_mem_cons.mp hinner
      obtain ⟨hlast, hnodup⟩ := List.nodup_cons.mp hnodup
      obtain ⟨byName₁, hpop, h₁⟩ := h.pop? hlast
      obtain ⟨byName', hsift, h'⟩ := ih h₁ hinner hnodup
      refine ⟨byName', ?_, h'⟩
      rw [siftEach, leave, if_neg (Nat.not_le.mpr hs), Option.bind_some, hpop, hsift]
      rfl

end SymbolStacks

/-! ### The table follows the stack -/

namespace SymbolTable

variable {t : SymbolTable} {m : Scopes}

/-- The table holds what the stack holds. -/
structure Represents (t : SymbolTable) (m : Scopes) : Prop where
  regular : m.Regular
  symbols : t.symbols = m.live
  byName : t.byName.Holds t.symbols
  scopeStack : t.scopeStack = (m.frames.map Frame.scope).reverse
  current : t.current = m.inner.scope
  lastScope : t.lastScope + 1 = m.opened.length
  nextAddress : t.nextAddress = m.varCount

namespace Represents

theorem lookup (h : t.Represents m) (name : Text) :
  t.lookup name = m.lookup name
  := by
  rw [SymbolTable.lookup, h.byName.of, ← List.head?_reverse, ← List.filter_reverse,
    List.head?_filter, Scopes.lookup, h.symbols, Scopes.live, List.reverse_flatMap,
    List.reverse_reverse, List.find?_flatMap]
  congr 1
  funext f
  apply f.find?_reverse

/-- The current scope declares what the innermost frame holds. -/
theorem declaresHere_iff (h : t.Represents m) (name : Text) :
  t.declaresHere name = true ↔ m.inner.Holds name
  := by
  rw [declaresHere, h.lookup, Scopes.lookup, Scopes.frames, List.findSome?_cons, Frame.holds_iff]
  cases hinner : m.inner.find? name with
  | some s =>
      have hs := h.regular.own m.inner List.mem_cons_self s (Frame.find?_eq_some_iff.mp hinner).1
      simp [hs, h.current]
  | none =>
      -- A declaration found further out stands in a scope with a smaller number.
      cases houter : m.outer.findSome? (·.find? name) with
      | none => simp
      | some s =>
          obtain ⟨f, hf, hfind⟩ := List.exists_of_findSome?_eq_some houter
          have hs := h.regular.own f (List.mem_cons_of_mem _ hf) s
            (Frame.find?_eq_some_iff.mp hfind).1
          have hlt := (List.pairwise_cons.mp h.regular.decreasing).1 _ (List.mem_map_of_mem hf)
          have hne : ¬ f.scope = m.inner.scope := Nat.ne_of_lt hlt
          simp [hs, h.current, hne]

theorem enterScope (h : t.Represents m) :
  t.enterScope.Represents m.enter
  := by
  have hlive : m.enter.live = m.live := by
    rw [Scopes.live_eq, Scopes.live_eq]
    simp [Scopes.enter, Frame.empty]
  constructor
  · apply h.regular.enter
  · exact h.symbols.trans hlive.symm
  · apply h.byName
  · change t.scopeStack ++ [t.lastScope + 1]
      = ((m.enter.inner :: m.frames).map Frame.scope).reverse
    rw [List.map_cons, List.reverse_cons, ← h.scopeStack, h.lastScope]
    rfl
  · exact h.lastScope
  · change t.lastScope + 1 + 1 = m.opened.length + 1
    rw [h.lastScope]
  · apply h.nextAddress

theorem exitScope?_of_outer_eq_nil (h : t.Represents m) (houter : m.outer = []) :
  t.exitScope? = some t
  := by
  rw [SymbolTable.exitScope?, if_pos]
  rw [h.scopeStack, Scopes.frames, houter]
  exact Nat.le_refl 1

/-- Leaving a scope drops the symbols of its frame and no others, and pops each of them. -/
theorem exists_exitScope? (h : t.Represents m) (houter : m.outer ≠ []) :
  ∃ t', t.exitScope? = some t' ∧ t'.symbols = m.outer.reverse.flatMap Frame.symbols
    ∧ t'.Represents m.exit
  := by
  obtain ⟨g, outer, houter⟩ := List.exists_cons_of_ne_nil houter
  have hexit : m.exit = { m with inner := g, outer } := by rw [Scopes.exit, houter]
  have hscopes : t.scopeStack
      = ((outer.map Frame.scope).reverse ++ [g.scope]) ++ [m.inner.scope] := by
    rw [h.scopeStack, Scopes.frames, houter]
    simp
  have hkept : ∀ s ∈ m.outer.reverse.flatMap Frame.symbols, s.scope ≤ g.scope := by
    intro s hs
    apply h.regular.scope_le houter hs
  have hdropped : ∀ s ∈ m.inner.symbols, g.scope < s.scope := by
    intro s hs
    apply h.regular.lt_scope houter hs
  have hbyName := h.byName
  rw [h.symbols, Scopes.live_eq] at hbyName
  obtain ⟨byName', hinner, hbyName'⟩ :=
    hbyName.siftEach_leave_inner hdropped m.inner.nodup
  have hsift : sift (SymbolStacks.leave g.scope) (some t.byName) t.symbols
      = (m.outer.reverse.flatMap Frame.symbols, some byName') := by
    rw [sift_eq_siftEach, h.symbols, Scopes.live_eq, SymbolStacks.siftEach_leave_outer _ hkept,
      hinner, List.append_nil]
  have heq : t.exitScope? = some
      { t with
        byName := byName'
        symbols := m.outer.reverse.flatMap Frame.symbols
        scopeStack := (outer.map Frame.scope).reverse ++ [g.scope]
        current := g.scope } := by
    have hlong : ¬ t.scopeStack.length ≤ 1 := by
      rw [hscopes]
      simp
    rw [SymbolTable.exitScope?, if_neg hlong, hscopes, List.dropLast_concat]
    simp only [List.getLastD_concat, hsift]
    rfl
  refine ⟨_, heq, rfl, ?_⟩
  constructor
  · apply h.regular.exit
  · rw [hexit, houter]
    rfl
  · exact hbyName'
  · rw [hexit]
    simp [Scopes.frames]
  · rw [hexit]
  · rw [hexit]
    exact h.lastScope
  · rw [hexit]
    exact h.nextAddress

/-- A scope is left without a name that has nothing to pop. -/
theorem exitScope?_eq (h : t.Represents m) :
  t.exitScope? = some t.exitScope
  := by
  have hsome : ∃ t', t.exitScope? = some t' := by
    by_cases houter : m.outer = []
    · exact ⟨t, h.exitScope?_of_outer_eq_nil houter⟩
    · obtain ⟨t', ht', -⟩ := h.exists_exitScope? houter
      exact ⟨t', ht'⟩
  obtain ⟨t', ht'⟩ := hsome
  rw [SymbolTable.exitScope, ht']
  rfl

theorem exitScope_of_outer_eq_nil (h : t.Represents m) (houter : m.outer = []) :
  t.exitScope = t
  := by
  rw [SymbolTable.exitScope, h.exitScope?_of_outer_eq_nil houter]
  rfl

theorem symbols_exitScope (h : t.Represents m) (houter : m.outer ≠ []) :
  t.exitScope.symbols = m.outer.reverse.flatMap Frame.symbols
  := by
  obtain ⟨t', ht', hsymbols, -⟩ := h.exists_exitScope? houter
  rw [SymbolTable.exitScope, ht']
  exact hsymbols

theorem exitScope (h : t.Represents m) :
  t.exitScope.Represents m.exit
  := by
  by_cases houter : m.outer = []
  · rw [h.exitScope_of_outer_eq_nil houter, Scopes.exit, houter]
    apply h
  · obtain ⟨t', ht', -, hrep⟩ := h.exists_exitScope? houter
    rw [SymbolTable.exitScope, ht']
    exact hrep

/-- A table to which a symbol of the current scope is added represents the scopes in which the
symbol is declared. -/
theorem declare (h : t.Represents m) {s : Symbol} (hnot : ¬ m.inner.Holds s.name)
    (hscope : s.scope = t.current)
    (haddress : s.address = if s.isFunction then none else some t.nextAddress) :
  ({ t.insert s with
      nextAddress := t.nextAddress + if s.isFunction then 0 else 1 } : SymbolTable).Represents
    (m.declare s)
  := by
  rw [h.current] at hscope
  rw [h.nextAddress] at haddress
  have hregular := h.regular.declare hscope haddress
  rw [Scopes.declare, dif_neg hnot] at hregular ⊢
  constructor
  · apply hregular
  · change t.symbols ++ [s] = _
    rw [h.symbols, Scopes.live_eq, Scopes.live_eq, List.append_assoc]
    rfl
  · apply h.byName.push
  · apply h.scopeStack
  · apply h.current
  · apply h.lastScope
  · rw [h.nextAddress, Scopes.varCount, Scopes.varCount, List.countP_append, List.countP_singleton]
    cases s.isFunction <;> rfl

theorem declareVariable_of_holds (h : t.Represents m) {name : Text} (hname : m.inner.Holds name)
    (type : DataType) :
  t.declareVariable name type = .error (.redeclaredVariable name)
  := by
  rw [declareVariable, if_pos ((h.declaresHere_iff name).mpr hname)]

theorem declareFunction_of_holds (h : t.Represents m) {name : Text} (hname : m.inner.Holds name)
    (type : DataType) (params : List DataType) :
  t.declareFunction name type params = .error (.redeclaredFunction name)
  := by
  rw [declareFunction, if_pos ((h.declaresHere_iff name).mpr hname)]

/-- A name that the innermost frame does not hold can be declared as a variable. -/
theorem declareVariable_of_not_holds (h : t.Represents m) {name : Text}
    (hname : ¬ m.inner.Holds name) (type : DataType) :
  ∃ t', t.declareVariable name type = .ok t' ∧ t'.Represents (m.act (.declareVar name type))
  := by
  rw [declareVariable, if_neg (by rwa [h.declaresHere_iff])]
  refine ⟨_, rfl, ?_⟩
  rw [Scopes.act, ← h.current, ← h.nextAddress]
  apply h.declare hname rfl rfl

/-- A name that the innermost frame does not hold can be declared as a function. -/
theorem declareFunction_of_not_holds (h : t.Represents m) {name : Text}
    (hname : ¬ m.inner.Holds name) (type : DataType) (params : List DataType) :
  ∃ t', t.declareFunction name type params = .ok t'
    ∧ t'.Represents (m.act (.declareFun name type params))
  := by
  rw [declareFunction, if_neg (by rwa [h.declaresHere_iff])]
  refine ⟨_, rfl, ?_⟩
  rw [Scopes.act, ← h.current]
  apply h.declare hname rfl rfl

/-- One action keeps table and stack together. -/
theorem act (h : t.Represents m) (a : TableAction) :
  (t.act a).Represents (m.act a)
  := by
  cases a with
  | enter => apply h.enterScope
  | exit => apply h.exitScope
  | declareVar name type =>
      by_cases hname : m.inner.Holds name
      · rw [SymbolTable.act, h.declareVariable_of_holds hname, Scopes.act, Scopes.declare,
          dif_pos hname]
        apply h
      · obtain ⟨t', ht', hrep⟩ := h.declareVariable_of_not_holds hname type
        rw [SymbolTable.act, ht']
        apply hrep
  | declareFun name type params =>
      by_cases hname : m.inner.Holds name
      · rw [SymbolTable.act, h.declareFunction_of_holds hname, Scopes.act, Scopes.declare,
          dif_pos hname]
        apply h
      · obtain ⟨t', ht', hrep⟩ := h.declareFunction_of_not_holds hname type params
        rw [SymbolTable.act, ht']
        apply hrep

end Represents

theorem represents_empty :
  Represents {} {}
  := ⟨Scopes.regular_empty, rfl, SymbolStacks.holds_nil, rfl, rfl, rfl, rfl⟩

/-- After every history the table represents the stack. -/
theorem represents_after (history : List TableAction) :
  (after history).Represents (Scopes.after history)
  := by
  induction history using List.reverseRecOn with
  | nil => apply represents_empty
  | append_singleton history a ih =>
      rw [after, Scopes.after, List.foldl_concat, List.foldl_concat]
      apply ih.act a

/-- The table answers as the stack does. -/
structure Follows (t : SymbolTable) (m : Scopes) : Prop where
  /-- A name means its declaration in the innermost scope that has one. -/
  lookup : ∀ name, t.lookup name = m.lookup name
  /-- The symbols are those of the open scopes. -/
  symbols : t.symbols = m.live
  /-- They stand in the order in which they were declared. -/
  order : t.symbols = m.declared.filter fun s => m.isOpen s.scope
  /-- The stack of a name holds the live symbols of the name in this order, and no name without one
  has a stack. -/
  byName : t.byName.Holds t.symbols
  /-- The numbers of the open scopes rise from the outermost to the current one. -/
  scopes : t.scopeStack = (m.frames.map Frame.scope).reverse ∧ t.scopeStack.Pairwise (· < ·)
  current : t.current = m.inner.scope
  /-- A scope is left without a name whose stack has nothing to pop. -/
  exits : t.exitScope? = some t.exitScope
  /-- The outermost scope cannot be left. -/
  exit_outermost : m.outer = [] → t.exitScope = t
  /-- Leaving any other scope drops the symbols of that scope and uncovers those it shadowed. -/
  exit : m.outer ≠ [] → t.symbols = t.exitScope.symbols ++ m.inner.symbols
    ∧ ∀ name, t.exitScope.lookup name = m.outer.findSome? (·.find? name)
  /-- A variable is refused exactly if the innermost scope declares its name, and then nothing
  changes. -/
  variable_refused : ∀ name type,
    ((∃ e, t.declareVariable name type = .error e) ↔ m.inner.Holds name)
      ∧ (m.inner.Holds name → t.act (.declareVar name type) = t)
  /-- A function is refused exactly if the innermost scope declares its name, and then nothing
  changes. -/
  function_refused : ∀ name type params,
    ((∃ e, t.declareFunction name type params = .error e) ↔ m.inner.Holds name)
      ∧ (m.inner.Holds name → t.act (.declareFun name type params) = t)

/-- Whether a declaration is refused, if it is known when it is and when it is not. -/
theorem exists_error_iff {r : Except SymbolError SymbolTable} {refused : Prop} {e : SymbolError}
    {accepts : SymbolTable → Prop} (herror : refused → r = .error e)
    (hok : ¬ refused → ∃ t', r = .ok t' ∧ accepts t') :
  (∃ e', r = .error e') ↔ refused
  := by
  constructor
  · rintro ⟨e', he'⟩
    by_contra hnot
    obtain ⟨t', ht', -⟩ := hok hnot
    rw [ht'] at he'
    cases he'
  · intro h
    exact ⟨e, herror h⟩

theorem Represents.follows (h : t.Represents m) :
  t.Follows m
  := by
  constructor
  · apply h.lookup
  · apply h.symbols
  · rw [h.symbols, h.regular.order]
  · apply h.byName
  · refine ⟨h.scopeStack, ?_⟩
    rw [h.scopeStack, List.pairwise_reverse]
    exact h.regular.decreasing
  · apply h.current
  · apply h.exitScope?_eq
  · apply h.exitScope_of_outer_eq_nil
  · intro houter
    constructor
    · rw [h.symbols_exitScope houter, h.symbols, Scopes.live_eq]
    · intro name
      obtain ⟨g, outer, houter⟩ := List.exists_cons_of_ne_nil houter
      rw [h.exitScope.lookup, Scopes.lookup, Scopes.exit, houter]
      rfl
  · intro name type
    constructor
    · apply exists_error_iff (fun hname => h.declareVariable_of_holds hname type)
        (fun hname => h.declareVariable_of_not_holds hname type)
    · intro hname
      rw [SymbolTable.act, h.declareVariable_of_holds hname]
      rfl
  · intro name type params
    constructor
    · apply exists_error_iff (fun hname => h.declareFunction_of_holds hname type params)
        (fun hname => h.declareFunction_of_not_holds hname type params)
    · intro hname
      rw [SymbolTable.act, h.declareFunction_of_holds hname]
      rfl

/-- The number of a scope that is entered is new: no scope had it before. -/
theorem current_ne_of_prefix {earlier history : List TableAction} (h : earlier <+: history) :
  (after earlier).current ≠ (after (history ++ [.enter])).current
  := by
  have hnew : (Scopes.after (history ++ [.enter])).inner.scope
      = (Scopes.after history).opened.length := by
    rw [Scopes.after, List.foldl_concat]
    rfl
  have hcurrent := (represents_after (history ++ [.enter])).current
  have hknown := (represents_after earlier).regular.known _ List.mem_cons_self
  have hle := Scopes.length_opened_after h
  rw [(represents_after earlier).current, hcurrent, hnew]
  omega

/-- After every history of actions a table follows the stack of scopes.  No scope is opened twice,
and entering one gives it a number that no scope had before.  The address of a variable is the
number of variables declared before it, so that no address is given twice either. -/
theorem follows_scopes (history : List TableAction) :
  (after history).Follows (Scopes.after history)
    ∧ (Scopes.after history).opened.Nodup
    ∧ (∀ earlier, earlier <+: history →
      (after earlier).current ≠ (after (history ++ [.enter])).current)
    ∧ (∀ before s later, (Scopes.after history).declared = before ++ s :: later →
      s.address = if s.isFunction then none else some (before.countP (! ·.isFunction)))
    ∧ ((Scopes.after history).declared.filterMap Symbol.address).Nodup
  := by
  have h := represents_after history
  refine ⟨h.follows, ?_, ?_, h.regular.addressed, h.regular.addresses_nodup⟩
  · rw [h.regular.counted, List.nodup_reverse]
    apply List.nodup_range
  · intro earlier hearlier
    apply current_ne_of_prefix hearlier

end SymbolTable

end ThreeAddress
