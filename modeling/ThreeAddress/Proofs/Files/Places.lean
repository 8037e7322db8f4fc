import Mathlib.Tactic.Common
import ThreeAddress.Files.Tree

/-!
# Places in file trees

A path whose last name is no link leads to a place with that name, however many links stand on the
way.  Most operations on a tree are harmless: they add empty files and directories or take something
away, and none of them makes a link.
-/

namespace ThreeAddress

/-! ### Names in paths -/

namespace Text

theorem splitByte_ne_nil (sep : UInt8) (t : Text) :
  splitByte sep t ≠ []
  := by
  induction t with
  | nil => simp [splitByte]
  | cons b t ih =>
      rw [splitByte]
      split
      · simp
      · split
        · simp
        · simp

/-- A text without the separator is one piece. -/
theorem splitByte_of_notMem {sep : UInt8} {t : Text} (h : sep ∉ t) :
  splitByte sep t = [t]
  := by
  induction t with
  | nil => rfl
  | cons b t ih =>
      rw [List.mem_cons, not_or] at h
      rw [splitByte, if_neg (Ne.symm h.1), ih h.2]

/-- The separator ends a piece. -/
theorem splitByte_append_cons (sep : UInt8) (s t : Text) :
  splitByte sep (s ++ sep :: t) = splitByte sep s ++ splitByte sep t
  := by
  induction s with
  | nil =>
      change (if sep = sep then [] :: splitByte sep t else _) = _
      rw [if_pos rfl]
      rfl
  | cons b s ih =>
      rw [List.cons_append, splitByte, splitByte]
      split
      · rw [ih]
        rfl
      · rw [ih]
        cases hs : splitByte sep s with
        | nil => exact absurd hs (splitByte_ne_nil sep s)
        | cons piece pieces => rfl

/-- The last of some joined texts stands alone or after a separator. -/
theorem join_concat (sep : Text) (ts : List Text) (t : Text) :
  ts = [] ∧ join sep (ts ++ [t]) = t ∨ ∃ front, join sep (ts ++ [t]) = front ++ sep ++ t
  := by
  induction ts with
  | nil => exact .inl ⟨rfl, rfl⟩
  | cons s ts ih =>
      right
      have hjoin : join sep (s :: ts ++ [t]) = s ++ sep ++ join sep (ts ++ [t]) := by
        cases ts with
        | nil => rfl
        | cons r ts => rfl
      obtain ⟨rfl, h⟩ | ⟨front, h⟩ := ih
      · exact ⟨s, by rw [hjoin, h]⟩
      · exact ⟨s ++ sep ++ front, by rw [hjoin, h]; simp only [List.append_assoc]⟩

end Text

namespace Path

/-- A name of a file: not empty, without a slash, and neither `.` nor `..`. -/
structure IsName (name : Text) : Prop where
  nonempty : name ≠ []
  slash : slash ∉ name
  here : name ≠ here
  parent : name ≠ parent

theorem IsName.not_skipped {name : Text} (h : IsName name) :
  ¬ (name.isEmpty || name == Path.here)
  := by
  simpa using ⟨h.nonempty, h.here⟩

theorem IsName.not_parent {name : Text} (h : IsName name) :
  ¬ name == Path.parent
  := by
  simpa using h.parent

theorem parts_concat {name : Text} (hname : IsName name) (front : Text) :
  ∃ ps, parts (front ++ slash :: name) = ps ++ [name]
  := by
  let stack :=
    (Text.splitByte slash front).foldl (pushPart (isAbsolute (front ++ slash :: name))) []
  have hpush : pushPart (isAbsolute (front ++ slash :: name)) stack name = name :: stack := by
    rw [pushPart.eq_def, if_neg hname.not_skipped, if_neg hname.not_parent]
  use stack.reverse
  rw [parts, Text.splitByte_append_cons, Text.splitByte_of_notMem hname.slash, List.foldl_append,
    List.foldl_cons, List.foldl_nil, hpush, List.reverse_cons]

theorem join_concat {name : Text} (hname : IsName name) {ps : List Text} {p : Text} (hp : p ∈ ps)
    (hne : p ≠ []) :
  ∃ front, join (ps ++ [name]) = clean (front ++ slash :: name)
  := by
  have hnames : (ps ++ [name]).filter (! ·.isEmpty) = ps.filter (! ·.isEmpty) ++ [name] := by
    rw [List.filter_append, List.filter_cons_of_pos (by simpa using hname.nonempty),
      List.filter_nil]
  have hjoin : join (ps ++ [name]) = clean (Text.join "/" (ps.filter (! ·.isEmpty) ++ [name])) := by
    rw [join, hnames]
    split
    · next hnil => simp at hnil
    · rfl
  obtain ⟨hnil, -⟩ | ⟨front, hfront⟩ := Text.join_concat "/" (ps.filter (! ·.isEmpty)) name
  · have hmem : p ∈ ps.filter (! ·.isEmpty) := List.mem_filter.mpr ⟨hp, by simpa using hne⟩
    rw [hnil] at hmem
    cases hmem
  · use front
    rw [hjoin, hfront, List.append_assoc]
    rfl

/-- A cleaned path ends with its last name, alone or after a slash. -/
theorem clean_concat {name : Text} (hname : IsName name) (front : Text) :
  clean (front ++ slash :: name) = name
    ∨ ∃ start, clean (front ++ slash :: name) = start ++ slash :: name
  := by
  obtain ⟨ps, hps⟩ := parts_concat hname front
  have hjoin := Text.join_concat "/" ps name
  have hslash : ∀ start, start ++ Text.ofString "/" ++ name = start ++ slash :: name := by
    intro start
    rw [List.append_assoc]
    rfl
  rw [clean, hps, ofParts]
  split
  · right
    obtain ⟨-, h⟩ | ⟨start, h⟩ := hjoin
    · exact ⟨[], by rw [h]; rfl⟩
    · exact ⟨slash :: start, by rw [h, hslash]; rfl⟩
  · rw [if_neg (by simp)]
    obtain ⟨-, h⟩ | ⟨start, h⟩ := hjoin
    · exact .inl h
    · exact .inr ⟨start, by rw [h, hslash]⟩

/-- The components of a path from the root on. -/
def components (cwd path : Text) : List Text :=
  Text.splitByte slash (if isAbsolute path then path else cwd ++ "/" ++ path)

theorem components_clean {name : Text} (hname : IsName name) (cwd front : Text) :
  ∃ names, components cwd (clean (front ++ slash :: name)) = names ++ [name]
  := by
  have hends : ∃ start, (if isAbsolute (clean (front ++ slash :: name))
      then clean (front ++ slash :: name) else cwd ++ "/" ++ clean (front ++ slash :: name))
      = start ++ slash :: name := by
    obtain h | ⟨start, h⟩ := clean_concat hname front
    · have habsolute : isAbsolute name = false := by
        rw [isAbsolute, beq_eq_false_iff_ne]
        intro hhead
        exact hname.slash (List.mem_of_head? hhead)
      rw [h, habsolute, if_neg (by simp), List.append_assoc]
      exact ⟨cwd, rfl⟩
    · rw [h]
      split
      · exact ⟨start, rfl⟩
      · exact ⟨cwd ++ "/" ++ start, by rw [List.append_assoc _ start]⟩
  obtain ⟨start, hstart⟩ := hends
  use Text.splitByte slash start
  rw [components, hstart, Text.splitByte_append_cons, Text.splitByte_of_notMem hname.slash]

end Path

/-! ### Walks -/

namespace FileTree

variable {t : FileTree}

/-- A place that the rest of a path may lead to, now or after links were taken away: a link is
followed or is no longer there. -/
inductive Leads (t : FileTree) : Place → List Text → Place → Prop where
  | stop {done : Place} : Leads t done [] done
  | skip {done place : Place} {name : Text} {rest : List Text} :
      name.isEmpty || name == Path.here → Leads t done rest place →
      Leads t done (name :: rest) place
  | parent {done place : Place} {name : Text} {rest : List Text} :
      name == Path.parent → Leads t done.dropLast rest place → Leads t done (name :: rest) place
  | name {done place : Place} {name : Text} {rest : List Text} :
      ¬ (name.isEmpty || name == Path.here) → ¬ name == Path.parent →
      Leads t (done ++ [name]) rest place → Leads t done (name :: rest) place
  | link {done place : Place} {name target : Text} {rest : List Text} :
      t.node? (done ++ [name]) = some (.link target) →
      Leads t (if Path.isAbsolute target then [] else done)
        (Text.splitByte Path.slash target ++ rest) place →
      Leads t done (name :: rest) place

/-- With fewer links a path leads to fewer places. -/
theorem Leads.mono {t' : FileTree} {done place : Place} {todo : List Text}
    (h : t'.Leads done todo place)
    (hlinks : ∀ p target, t'.node? p = some (.link target) → t.node? p = some (.link target)) :
  t.Leads done todo place
  := by
  induction h with
  | stop => exact .stop
  | skip hname _ ih => exact .skip hname ih
  | parent hname _ ih => exact .parent hname ih
  | name hother hname _ ih => exact .name hother hname ih
  | link hnode _ ih => exact .link (hlinks _ _ hnode) ih

/-- A path that leads to no link leads to places with its own last name. -/
theorem Leads.getLast? {done place : Place} {todo names : List Text} {name : Text}
    (h : t.Leads done todo place) (htodo : todo = names ++ [name]) (hname : Path.IsName name)
    (hbare : ∀ p, t.Leads done todo p → ∀ target, t.node? p ≠ some (.link target)) :
  place.getLast? = some name
  := by
  induction h generalizing names with
  | stop => simp at htodo
  | skip hskip _ ih =>
      cases names with
      | nil =>
          obtain ⟨rfl, -⟩ := List.cons.inj htodo
          exact absurd hskip hname.not_skipped
      | cons first names =>
          exact ih (List.tail_eq_of_cons_eq htodo) fun p hp => hbare p (.skip hskip hp)
  | parent hparent _ ih =>
      cases names with
      | nil =>
          obtain ⟨rfl, -⟩ := List.cons.inj htodo
          exact absurd hparent hname.not_parent
      | cons first names =>
          exact ih (List.tail_eq_of_cons_eq htodo) fun p hp => hbare p (.parent hparent hp)
  | name hskip hparent hrest ih =>
      cases names with
      | nil =>
          obtain ⟨rfl, rfl⟩ := List.cons.inj htodo
          cases hrest
          rw [List.getLast?_concat]
      | cons first names =>
          exact ih (List.tail_eq_of_cons_eq htodo) fun p hp => hbare p (.name hskip hparent hp)
  | link hnode _ ih =>
      cases names with
      | nil =>
          obtain ⟨rfl, rfl⟩ := List.cons.inj htodo
          exact absurd hnode (hbare _ (.name hname.not_skipped hname.not_parent .stop) _)
      | cons first names =>
          obtain ⟨-, rfl⟩ := List.cons.inj htodo
          exact ih (List.append_assoc ..).symm fun p hp => hbare p (.link hnode hp)

theorem leads_of_walk {follow : Bool} {links : Nat} {done place : Place} {todo : List Text}
    (h : t.walk follow links done todo = .ok place) :
  t.Leads done todo place
  := by
  -- The cases of the walk: nothing left, a name to skip, the parent, a name that is too long, and
  -- what stands under a name, at the end of the path or not.
  fun_induction walk t follow links done todo with
  | case1 links done =>
      cases h
      exact .stop
  | case2 links done name rest hskip ih => exact .skip hskip (ih h)
  | case3 links done name rest hskip hparent ih => exact .parent hparent (ih h)
  | case4 | case6 | case8 | case11 => cases h
  | case5 links done name rest hskip hparent hlong place' hnode hrest =>
      rw [← Except.ok.inj h, List.isEmpty_iff.mp hrest]
      exact .name hskip hparent .stop
  | case7 links done name rest hskip hparent hlong place' content hnode hrest =>
      rw [← Except.ok.inj h, List.isEmpty_iff.mp hrest]
      exact .name hskip hparent .stop
  | case9 links done name rest hskip hparent hlong place' hnode ih =>
      exact .name hskip hparent (ih h)
  | case10 links done name rest hskip hparent hlong place' target hnode hlast =>
      rw [← Except.ok.inj h, List.isEmpty_iff.mp (Bool.and_eq_true_iff.mp hlast).1]
      exact .name hskip hparent .stop
  | case12 done name rest hskip hparent hlong place' target hnode hlast links ih =>
      exact .link hnode (ih h)

theorem leads_of_place {follow : Bool} {path : Text} {place : Place}
    (h : t.place follow path = .ok place) :
  t.Leads [] (Path.components t.cwd path) place
  := by
  rw [FileTree.place] at h
  split at h
  · cases h
  · split at h
    · cases h
    · split at h
      · cases h
      · exact leads_of_walk h

/-! ### Changes -/

/-- Dropping places leaves the others as they are. -/
theorem lookup_filter (nodes : List (Place × FileNode)) (f : Place → Bool) (place : Place) :
  (nodes.filter fun n => f n.1).lookup place = if f place then nodes.lookup place else none
  := by
  induction nodes with
  | nil => simp
  | cons n nodes ih =>
      obtain ⟨p, n⟩ := n
      rw [List.filter_cons, List.lookup_cons]
      by_cases hp : place = p
      · subst hp
        split
        · simp
        · next hf => simp [ih, hf]
      · have hbeq : (place == p) = false := by simpa using hp
        rw [hbeq]
        split
        · rw [List.lookup_cons, hbeq, ih]
        · exact ih

theorem node?_put (t : FileTree) (place place' : Place) (n : FileNode) :
  (t.put place n).node? place'
    = if place' = [] then some .directory else if place' = place then some n else t.node? place'
  := by
  cases place' with
  | nil => rfl
  | cons name names =>
      rw [if_neg (List.cons_ne_nil name names)]
      change List.lookup _ ((place, n) :: t.nodes.filter fun n => n.1 != place) = if _ then _ else
        t.nodes.lookup _
      rw [List.lookup_cons, lookup_filter t.nodes (· != place)]
      by_cases h : name :: names = place
      · simp [h]
      · have hbeq : (name :: names == place) = false := by simpa using h
        rw [hbeq, if_neg h]
        simp [h]

/-- The trees differ only by empty files, by directories, and by what was taken away. -/
structure Harmless (t t' : FileTree) : Prop where
  cwd : t'.cwd = t.cwd
  nodes : ∀ place, t'.node? place = t.node? place ∨ t'.node? place = none
    ∨ t'.node? place = some .directory ∨ t'.node? place = some (.file [])

theorem Harmless.refl (t : FileTree) :
  Harmless t t
  := ⟨rfl, fun _ => .inl rfl⟩

theorem Harmless.put_directory (t : FileTree) (place : Place) :
  Harmless t (t.put place .directory)
  := by
  refine ⟨rfl, fun place' => ?_⟩
  rw [node?_put]
  split
  · exact .inr (.inr (.inl rfl))
  · split
    · exact .inr (.inr (.inl rfl))
    · exact .inl rfl

theorem Harmless.put_empty (t : FileTree) (place : Place) :
  Harmless t (t.put place (.file []))
  := by
  refine ⟨rfl, fun place' => ?_⟩
  rw [node?_put]
  split
  · exact .inr (.inr (.inl rfl))
  · split
    · exact .inr (.inr (.inr rfl))
    · exact .inl rfl

theorem Harmless.removeAll {path : Text} {t' : FileTree} (h : t.removeAll path = .ok t') :
  Harmless t t'
  := by
  rw [FileTree.removeAll] at h
  split at h
  · cases h
    exact .refl t
  · cases h
  · next place _ =>
    cases h
    refine ⟨rfl, fun place' => ?_⟩
    rw [node?, node?]
    split
    · exact .inl rfl
    · rw [lookup_filter t.nodes fun p => !place.isPrefixOf p]
      split
      · exact .inl rfl
      · exact .inr (.inl rfl)

theorem bind_eq_ok {ε α β : Type} {x : Except ε α} {f : α → Except ε β} {b : β}
    (h : x >>= f = .ok b) :
  ∃ a, x = .ok a ∧ f a = .ok b
  := by
  cases x with
  | error e => cases h
  | ok a => exact ⟨a, rfl, h⟩

theorem Harmless.makeDir {path : Text} {t' : FileTree} (h : t.makeDir path = .ok t') :
  Harmless t t'
  := by
  obtain ⟨place, -, h⟩ := bind_eq_ok h
  split at h
  · obtain ⟨_, h', -⟩ := bind_eq_ok h
    cases h'
  · cases h
    apply put_directory

theorem Harmless.touch {path : Text} {t' : FileTree} (h : t.touch path = .ok t') :
  Harmless t t'
  := by
  obtain ⟨place, -, h⟩ := bind_eq_ok h
  cases h
  split
  · exact .refl t
  · apply put_empty

theorem place_of_filePlace {follow : Bool} {path : Text} {place : Place}
    (h : t.filePlace follow path = .ok place) :
  t.place follow path = .ok place
  := by
  rw [filePlace] at h
  split at h
  · obtain ⟨_, -, h⟩ := bind_eq_ok h
    cases h
  · obtain ⟨place', hplace, h⟩ := bind_eq_ok h
    split at h
    · cases h
    · cases h
      exact hplace

/-- A file is put in a place that its path leads to. -/
theorem eq_put_of_replace {path content : Text} {t' : FileTree}
    (h : t.replace path content = .ok t') :
  ∃ place, t.Leads [] (Path.components t.cwd path) place ∧ t' = t.put place (.file content)
  := by
  obtain ⟨place, hplace, h⟩ := bind_eq_ok h
  cases h
  exact ⟨place, leads_of_place (place_of_filePlace hplace), rfl⟩

end FileTree

/-! ### Actions that keep a property of the tree -/

/-- The action keeps a property of the state. -/
def Preserves {σ α : Type} (P : σ → Prop) (x : StateM σ α) : Prop := ∀ s, P s → P (x.run s).2

namespace Preserves

variable {σ α β : Type} {P : σ → Prop} {x : StateM σ α} {f : α → StateM σ β}

theorem pure (a : α) :
  Preserves P (Pure.pure a : StateM σ α)
  := fun _ h => h

theorem bind (hx : Preserves P x) (hf : ∀ a, Preserves P (f a)) :
  Preserves P (x >>= f)
  := by
  intro s hs
  exact hf (x.run s).1 (x.run s).2 (hx s hs)

end Preserves

namespace FileTree

variable {P : FileTree → Prop}

/-- The property holds on after harmless changes. -/
def Robust (P : FileTree → Prop) : Prop := ∀ t t', P t → Harmless t t' → P t'

theorem preserves_change {f : FileTree → Except FileFault FileTree}
    (h : ∀ t t', P t → f t = .ok t' → P t') :
  Preserves P (change f)
  := by
  intro t ht
  rw [change, StateT.run_bind]
  simp only [StateT.run_get, pure_bind]
  cases hf : f t with
  | ok t' => exact h t t' ht hf
  | error fault => exact ht

theorem preserves_makeNested (hrobust : Robust P) (paths : List Text) :
  Preserves P (access.makeNested paths)
  := by
  induction paths with
  | nil => apply Preserves.pure
  | cons path above ih =>
      have hkind : Preserves P (access.kind path) := fun _ h => h
      have hownKind : Preserves P (access.ownKind path) := fun _ h => h
      have hmakeDir : Preserves P (access.makeDir path) :=
        preserves_change fun t t' ht h => hrobust t t' ht (.makeDir h)
      rw [FileAccess.makeNested]
      apply hkind.bind
      intro kind
      split
      · apply Preserves.pure
      · apply Preserves.pure
      · apply ih.bind
        intro r
        split
        · apply Preserves.pure
        · apply hmakeDir.bind
          intro made
          apply hownKind.bind
          intro own
          split
          · apply Preserves.pure
          · apply Preserves.pure
          · apply Preserves.pure

end FileTree

end ThreeAddress
