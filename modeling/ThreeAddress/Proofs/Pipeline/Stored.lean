import ThreeAddress.Pipeline.Stored
import ThreeAddress.Proofs.Files.Places
import ThreeAddress.Proofs.Pipeline.Keys

/-!
# Stores keep artifacts apart

The ways to the files of different keys lead to different places, so a store changes the file of a
key only when it puts artifacts there under that very key.  What is found under a key was therefore
put there.
-/

namespace ThreeAddress

deriving instance DecidableEq for
  Dict, Block, Graph, Interference, AllocationStep, Allocation, Artifacts

/-- The allocation without the index of its graph. -/
def Allocation.dropIndex (a : Allocation) : Allocation := { a with graph := a.graph.dropIndex }

/-- The artifacts without the index of the interference graph, as they come back from a store. -/
def Artifacts.dropIndex (a : Artifacts) : Artifacts :=
  { a with allocation := a.allocation.map Allocation.dropIndex }

/-- Unpacking undoes packing. -/
def Artifacts.RoundTrips (a : Artifacts) : Prop := ofBytes a.toBytes = .ok a.dropIndex

instance (a : Artifacts) : Decidable a.RoundTrips :=
  inferInstanceAs (Decidable (Artifacts.ofBytes a.toBytes = .ok a.dropIndex))

theorem Artifacts.dropIndex_dropIndex (a : Artifacts) :
  a.dropIndex.dropIndex = a.dropIndex
  := by
  rw [dropIndex, dropIndex]
  dsimp only
  rw [Option.map_map]
  rfl

/-- The index is not packed. -/
theorem Artifacts.toBytes_dropIndex (a : Artifacts) :
  a.dropIndex.toBytes = a.toBytes
  := by
  obtain ⟨schema, path, symbols, program, graph, allocation, machine⟩ := a
  cases allocation with
  | none => rfl
  | some alloc => rfl

/-- No artifacts are packed into nothing. -/
theorem Artifacts.ofBytes_nil (a : Artifacts) :
  ofBytes [] ≠ .ok a
  := by
  intro h
  cases h

namespace FileStore

open FileTree

variable {s : FileStore}

/-- The name of a key's file. -/
def fileName (key : Digest) : Text := key.hexBytes ++ ".mp"

theorem isName_fileName (key : Digest) :
  Path.IsName (fileName key)
  := by
  have hending : fileName key = key.hexBytes ++ [46, 109, 112] := rfl
  rw [hending]
  refine ⟨by simp, ?_, ?_, ?_⟩
  · rw [List.mem_append, not_or]
    refine ⟨?_, by decide⟩
    intro h
    have := Text.mem_hexBytes h
    revert this
    decide
  · intro h
    have hlength := congrArg List.length h
    rw [List.length_append] at hlength
    change _ + 3 = 1 at hlength
    omega
  · intro h
    have hlength := congrArg List.length h
    rw [List.length_append] at hlength
    change _ + 3 = 2 at hlength
    omega

/-- The way to the file of a key. -/
def way (s : FileStore) (cwd : Text) (key : Digest) : List Text :=
  Path.components cwd (s.pathOf key)

theorem way_eq (s : FileStore) (cwd : Text) (key : Digest) :
  ∃ names, s.way cwd key = names ++ [fileName key]
  := by
  have hpath : s.pathOf key
      = Path.join ([s.dir, "artifacts", key.hexBytes.take 2] ++ [fileName key]) := rfl
  have hmem : Text.ofString "artifacts" ∈ [s.dir, "artifacts", key.hexBytes.take 2] := by simp
  obtain ⟨front, hfront⟩ := Path.join_concat (isName_fileName key) hmem (by decide)
  rw [way, hpath, hfront]
  exact Path.components_clean (isName_fileName key) cwd front

/-- The way to a file of the store leads to no link, and what is stored there is good. -/
structure Holds (s : FileStore) (cwd : Text) (good : Digest → Artifacts → Prop) (t : FileTree) :
    Prop where
  home : t.cwd = cwd
  bare : ∀ key place, t.Leads [] (s.way cwd key) place →
    ∀ target, t.node? place ≠ some (.link target)
  good : ∀ key place content a, t.Leads [] (s.way cwd key) place →
    t.node? place = some (.file content) → Artifacts.ofBytes content = .ok a → good key a

variable {cwd : Text} {good : Digest → Artifacts → Prop}

/-- The ways to the files of different keys lead to different places. -/
theorem Holds.eq_of_leads {t : FileTree} (h : s.Holds cwd good t) {key key' : Digest}
    {place : Place} (hkey : t.Leads [] (s.way cwd key) place)
    (hkey' : t.Leads [] (s.way cwd key') place) :
  key = key'
  := by
  have hlast : ∀ {key}, t.Leads [] (s.way cwd key) place →
      place.getLast? = some (fileName key) := by
    intro key hleads
    obtain ⟨names, hnames⟩ := s.way_eq cwd key
    exact hleads.getLast? hnames (isName_fileName key) (h.bare key)
  have hname := Option.some.inj ((hlast hkey).symm.trans (hlast hkey'))
  exact Text.hexBytes_injective (List.append_cancel_right hname)

/-- A change that makes no link and leaves only good files keeps a store. -/
theorem Holds.of_nodes {t t' : FileTree} (h : s.Holds cwd good t) (hcwd : t'.cwd = t.cwd)
    (hlinks : ∀ p target, t'.node? p = some (.link target) → t.node? p = some (.link target))
    (hfiles : ∀ key p content a, t.Leads [] (s.way cwd key) p →
      t'.node? p = some (.file content) → Artifacts.ofBytes content = .ok a →
      t.node? p = some (.file content) ∨ good key a) :
  s.Holds cwd good t'
  := by
  refine ⟨hcwd.trans h.home, ?_, ?_⟩
  · intro key place hleads target hlink
    exact h.bare key place (hleads.mono hlinks) target (hlinks place target hlink)
  · intro key place content a hleads hfile ha
    obtain hold | hgood := hfiles key place content a (hleads.mono hlinks) hfile ha
    · exact h.good key place content a (hleads.mono hlinks) hold ha
    · exact hgood

theorem robust_holds (s : FileStore) (cwd : Text) (good : Digest → Artifacts → Prop) :
  Robust (s.Holds cwd good)
  := by
  intro t t' ht h
  apply ht.of_nodes h.cwd
  · intro p target hlink
    obtain heq | heq | heq | heq := h.nodes p
    · exact heq ▸ hlink
    all_goals
      rw [heq] at hlink
      cases hlink
  · intro key p content a _ hfile ha
    obtain heq | heq | heq | heq := h.nodes p
    · exact .inl (heq ▸ hfile)
    · rw [heq] at hfile
      cases hfile
    · rw [heq] at hfile
      cases hfile
    · rw [heq] at hfile
      cases hfile
      cases Artifacts.ofBytes_nil a ha

/-- Good artifacts can be put under their key. -/
theorem Holds.replace {t t' : FileTree} (h : s.Holds cwd good t) {key : Digest} {a : Artifacts}
    (hgood : good key a.dropIndex) (hround : a.RoundTrips)
    (hreplace : t.replace (s.pathOf key) a.toBytes = .ok t') :
  s.Holds cwd good t'
  := by
  obtain ⟨place, hplace, rfl⟩ := eq_put_of_replace hreplace
  rw [h.home] at hplace
  have hnode : ∀ p n, (t.put place (.file a.toBytes)).node? p = some n →
      n = .directory ∨ (p = place ∧ n = .file a.toBytes) ∨ t.node? p = some n := by
    intro p n hn
    rw [node?_put] at hn
    split at hn
    · exact .inl (Option.some.inj hn).symm
    · split at hn
      · next hp => exact .inr (.inl ⟨hp, (Option.some.inj hn).symm⟩)
      · exact .inr (.inr hn)
  have hcwd : (t.put place (.file a.toBytes)).cwd = t.cwd := rfl
  apply h.of_nodes hcwd
  · intro p target hlink
    obtain hdir | ⟨-, hfile⟩ | hold := hnode p _ hlink
    · cases hdir
    · cases hfile
    · exact hold
  · intro key' p content b hleads hfile hb
    obtain hdir | ⟨rfl, hcontent⟩ | hold := hnode p _ hfile
    · cases hdir
    · right
      cases hcontent
      obtain rfl := h.eq_of_leads hplace hleads
      rw [hround] at hb
      cases hb
      exact hgood
    · exact .inl hold

theorem preserves_firstError {P : FileTree → Prop}
    {xs : List (StateM FileTree (Except FileError Unit))} (h : ∀ x ∈ xs, Preserves P x) :
  Preserves P (firstError xs)
  := by
  induction xs with
  | nil => apply Preserves.pure
  | cons x xs ih =>
      obtain ⟨hx, hxs⟩ := List.forall_mem_cons.mp h
      rw [firstError]
      apply hx.bind
      intro r
      split
      · exact ih hxs
      · apply Preserves.pure

theorem preserves_named {P : FileTree → Prop} {x : StateM FileTree (Except FileFault Unit)}
    (action path : Text) (h : Preserves P x) :
  Preserves P (FileStore.named action path x)
  := by
  rw [FileStore.named]
  apply h.bind
  intro r
  apply Preserves.pure

theorem preserves_lock (s s' : FileStore) :
  Preserves (s'.Holds cwd good) (s.lock FileTree.access)
  := by
  apply preserves_named
  apply preserves_change
  intro t t' ht h
  exact robust_holds s' cwd good t t' ht (.touch h)

/-- A store that is emptied holds what is good. -/
theorem preserves_clear (s : FileStore) :
  Preserves (s.Holds cwd good) (s.clear FileTree.access)
  := by
  rw [clear]
  refine (preserves_firstError ?_).bind fun _ => .pure _
  rw [List.forall_mem_cons, List.forall_mem_cons, List.forall_mem_singleton]
  refine ⟨s.preserves_lock s, ?_, ?_⟩
  · apply preserves_named
    apply preserves_change
    intro t t' ht h
    exact robust_holds s cwd good t t' ht (.removeAll h)
  · apply preserves_makeNested (robust_holds s cwd good)

/-- A store holds what is good after good artifacts were put into it. -/
theorem preserves_put (s : FileStore) {key : Digest} {a : Artifacts} (hgood : good key a.dropIndex)
    (hround : a.RoundTrips) :
  Preserves (s.Holds cwd good) (s.put FileTree.access key a)
  := by
  rw [put]
  refine (preserves_firstError ?_).bind fun _ => .pure _
  rw [List.forall_mem_cons, List.forall_mem_cons, List.forall_mem_singleton]
  refine ⟨s.preserves_lock s, ?_, ?_⟩
  · apply preserves_makeNested (robust_holds s cwd good)
  · apply preserves_named
    apply preserves_change
    intro t t' ht h
    exact ht.replace hgood hround h

/-- What is loaded is the content of the file. -/
theorem load_eq (t : FileTree) (path : Text) :
  ∃ r, (FileTree.access.load path).run t = (r, t)
    ∧ ∀ content, r = .ok content → t.read path = .ok content
  := by
  have hread : (FileTree.access.read path).run t = (t.read path, t) := rfl
  rw [FileAccess.load, StateT.run_bind, hread]
  cases t.read path with
  | ok content => exact ⟨.ok content, rfl, fun content' h => by rw [Except.ok.inj h]⟩
  | error fault =>
      cases fault
      all_goals exact ⟨_, rfl, fun _ h => nomatch h⟩

/-- A path that can be read leads to a file. -/
theorem leads_of_read {t : FileTree} {path content : Text} (h : t.read path = .ok content) :
  ∃ place, t.Leads [] (Path.components t.cwd path) place
    ∧ t.node? place = some (.file content)
  := by
  rw [FileTree.read, FileTree.find] at h
  cases hplace : t.place true path with
  | error fault =>
      rw [hplace] at h
      cases h
  | ok place =>
      use place, leads_of_place hplace
      rw [hplace] at h
      dsimp only at h
      rcases hnode : t.node? place with _ | content' | _ | target
      all_goals rw [hnode] at h
      all_goals cases h
      rfl

/-- What is found is good, and looking for it changes nothing. -/
theorem Holds.get {t : FileTree} (h : s.Holds cwd good t) (key : Digest) :
  ((s.get FileTree.access key).run t).2 = t ∧
    ∀ a, ((s.get FileTree.access key).run t).1 = .found a → good key a
  := by
  obtain ⟨r, hload, hcontent⟩ := load_eq t (s.pathOf key)
  rw [FileStore.get, StateT.run_bind, hload]
  cases r with
  | error e =>
      refine ⟨rfl, fun a ha => ?_⟩
      change (if e.fault = .missing then StoreAnswer.missing else .unreadable e.message)
        = .found a at ha
      split at ha
      · cases ha
      · cases ha
  | ok content =>
      obtain ⟨place, hleads, hnode⟩ := leads_of_read (hcontent content rfl)
      rw [h.home] at hleads
      dsimp only [bind, Monad.toBind, Id.instMonad]
      cases hbytes : Artifacts.ofBytes content with
      | error e => exact ⟨rfl, fun a ha => nomatch ha⟩
      | ok b =>
          refine ⟨rfl, fun a ha => ?_⟩
          obtain rfl : b = a := StoreAnswer.found.inj ha
          exact h.good key place content b hleads hnode hbytes

end FileStore

end ThreeAddress
