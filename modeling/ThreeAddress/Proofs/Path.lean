import ThreeAddress.Proofs.Files.Places
import ThreeAddress.Proofs.Text.Glyphs

/-!
# Cleaned paths and displayed paths

A cleaned absolute path is made of its names, and the names of two such paths tell where the one
lies seen from the other.  A file is displayed by the names that lead from the base directory down
to it, unless there are none or the first one starts with two dots, as the way up would; then it is
displayed as it is.  In either case the file can be told from what is displayed.
-/

namespace ThreeAddress

namespace Text

theorem notMem_of_mem_splitByte {sep : UInt8} {t piece : Text} (h : piece ∈ splitByte sep t) :
  sep ∉ piece
  := by
  induction t generalizing piece with
  | nil =>
      rw [List.mem_singleton.mp h]
      apply List.not_mem_nil
  | cons b t ih =>
      rw [splitByte] at h
      split at h
      · obtain rfl | h := List.mem_cons.mp h
        · apply List.not_mem_nil
        · exact ih h
      · next hb =>
        cases ht : splitByte sep t with
        | nil => exact absurd ht (splitByte_ne_nil sep t)
        | cons first pieces =>
            rw [ht] at h ih
            obtain rfl | h := List.mem_cons.mp h
            · rw [List.mem_cons, not_or]
              exact ⟨Ne.symm hb, ih List.mem_cons_self⟩
            · exact ih (List.mem_cons_of_mem _ h)

theorem join_cons_cons (sep : UInt8) (t u : Text) (us : List Text) :
  join [sep] (t :: u :: us) = t ++ sep :: join [sep] (u :: us)
  := by
  rw [join_cons_of_ne_nil _ _ (List.cons_ne_nil u us), List.append_assoc]
  rfl

/-- Splitting undoes joining, unless nothing is joined. -/
theorem splitByte_join {sep : UInt8} {ts : List Text} (hne : ts ≠ []) (h : ∀ t ∈ ts, sep ∉ t) :
  splitByte sep (join [sep] ts) = ts
  := by
  induction ts with
  | nil => contradiction
  | cons t ts ih =>
      obtain ⟨ht, hts⟩ := List.forall_mem_cons.mp h
      cases ts with
      | nil => exact splitByte_of_notMem ht
      | cons u us =>
          rw [join_cons_cons, splitByte_append_cons, splitByte_of_notMem ht, ih (by simp) hts]
          rfl

/-- A text before a separator is as long as anything without the separator can be. -/
theorem prefix_append_cons_iff {sep : UInt8} {s t u : Text} (h : sep ∉ s) :
  s <+: t ++ sep :: u ↔ s <+: t
  := by
  constructor
  · intro hs
    obtain ht | ⟨rest, rfl⟩ := List.prefix_or_prefix_of_prefix hs (List.prefix_append t (sep :: u))
    · exact ht
    · rw [List.prefix_append_right_inj] at hs
      cases rest with
      | nil => simp
      | cons b rest =>
          obtain ⟨rfl, -⟩ := List.cons_prefix_cons.mp hs
          exact absurd (by simp) h
  · intro hs
    exact hs.trans (List.prefix_append t (sep :: u))

end Text

namespace Path

variable {p dir file : Text} {names : List Text}

/-! ### Cleaned paths -/

theorem isName_pushPart {stack : List Text} {part : Text} (hpart : slash ∉ part)
    (hstack : ∀ n ∈ stack, IsName n) :
  ∀ n ∈ pushPart true stack part, IsName n
  := by
  rw [pushPart.eq_def]
  split
  · exact hstack
  · next hskip =>
    rw [Bool.or_eq_true, not_or] at hskip
    split
    · cases stack with
      | nil => simp
      | cons top rest =>
          obtain ⟨htop, hrest⟩ := List.forall_mem_cons.mp hstack
          dsimp only
          rw [if_neg htop.not_parent]
          exact hrest
    · next hparent =>
      rw [List.forall_mem_cons]
      refine ⟨⟨?_, hpart, ?_, ?_⟩, hstack⟩
      · simpa using hskip.1
      · simpa using hskip.2
      · simpa using hparent

theorem isName_foldl_pushPart {pieces stack : List Text} (hpieces : ∀ piece ∈ pieces, slash ∉ piece)
    (hstack : ∀ n ∈ stack, IsName n) :
  ∀ n ∈ pieces.foldl (pushPart true) stack, IsName n
  := by
  induction pieces generalizing stack with
  | nil => exact hstack
  | cons piece pieces ih =>
      obtain ⟨hpiece, hpieces⟩ := List.forall_mem_cons.mp hpieces
      exact ih hpieces (isName_pushPart hpiece hstack)

/-- The parts of an absolute path are names. -/
theorem isName_of_mem_parts (hp : isAbsolute p) :
  ∀ n ∈ parts p, IsName n
  := by
  intro n hn
  rw [parts, hp, List.mem_reverse] at hn
  exact isName_foldl_pushPart (fun _ => Text.notMem_of_mem_splitByte) (by simp) n hn

/-- Names are pushed one after the other. -/
theorem foldl_pushPart {absolute : Bool} {stack : List Text} (h : ∀ n ∈ names, IsName n) :
  names.foldl (pushPart absolute) stack = names.reverse ++ stack
  := by
  induction names generalizing stack with
  | nil => rfl
  | cons n names ih =>
      obtain ⟨hn, hnames⟩ := List.forall_mem_cons.mp h
      have hpush : pushPart absolute stack n = n :: stack := by
        rw [pushPart.eq_def, if_neg hn.not_skipped, if_neg hn.not_parent]
      rw [List.foldl_cons, hpush, ih hnames, List.reverse_cons, List.append_assoc]
      rfl

/-- The parts of names behind a path from the root, or behind nothing. -/
theorem parts_append (hdir : isAbsolute (dir ++ [slash])) (hne : names ≠ [])
    (h : ∀ n ∈ names, IsName n) :
  parts (dir ++ slash :: Text.join "/" names) = parts dir ++ names
  := by
  have hsplit : Text.splitByte slash (Text.join "/" names) = names :=
    Text.splitByte_join hne fun n hn => (h n hn).slash
  have habsolute : isAbsolute (dir ++ slash :: Text.join "/" names) = true := by
    cases dir with
    | nil => rfl
    | cons b dir => exact hdir
  have hparts : parts dir = ((Text.splitByte slash dir).foldl (pushPart true) []).reverse := by
    cases dir with
    | nil => rfl
    | cons b dir => rw [parts, show isAbsolute (b :: dir) = true from hdir]
  rw [hparts, parts, habsolute, Text.splitByte_append_cons, hsplit, List.foldl_append,
    foldl_pushPart h, List.reverse_append, List.reverse_reverse]

theorem parts_ofParts (h : ∀ n ∈ names, IsName n) :
  parts (ofParts true names) = names
  := by
  cases names with
  | nil => rfl
  | cons n names =>
      have hempty : isAbsolute ([] ++ [slash]) = true := rfl
      exact parts_append hempty (List.cons_ne_nil n names) h

/-- A path from the root in its shortest form. -/
structure IsCleaned (p : Text) : Prop where
  absolute : isAbsolute p
  clean : clean p = p

namespace IsCleaned

theorem isName (h : IsCleaned p) :
  ∀ n ∈ parts p, IsName n
  := isName_of_mem_parts h.absolute

/-- A cleaned path is made of its parts. -/
theorem ofParts_parts (h : IsCleaned p) :
  ofParts true (parts p) = p
  := by
  have hclean := h.clean
  rwa [Path.clean, h.absolute] at hclean

theorem isName_of_below {above below : List Text} (h : IsCleaned p)
    (hparts : parts p = above ++ below) :
  ∀ n ∈ below, IsName n
  := by
  intro n hn
  apply h.isName
  rw [hparts]
  exact List.mem_append_right _ hn

theorem eq_of_parts_eq {q : Text} (hp : IsCleaned p) (hq : IsCleaned q) (h : parts p = parts q) :
  p = q
  := by
  rw [← hp.ofParts_parts, h, hq.ofParts_parts]

end IsCleaned

theorem isCleaned_clean (hp : isAbsolute p) :
  IsCleaned (clean p)
  := by
  have hclean : clean p = ofParts true (parts p) := by
    rw [clean, hp]
  rw [hclean]
  refine ⟨rfl, ?_⟩
  rw [clean, parts_ofParts (isName_of_mem_parts hp)]
  rfl

theorem isAbsolute_append (hp : isAbsolute p) (q : Text) :
  isAbsolute (p ++ q)
  := by
  cases p with
  | nil => cases hp
  | cons b p => exact hp

theorem join_pair {q : Text} (hp : isAbsolute p) (hq : q ≠ []) :
  join [p, q] = clean (p ++ slash :: q)
  := by
  cases p with
  | nil => cases hp
  | cons b p =>
      cases q with
      | nil => contradiction
      | cons c q =>
          rw [List.append_cons]
          rfl

theorem isCleaned_absolute {cwd : Text} (hcwd : isAbsolute cwd) (hp : p ≠ []) :
  IsCleaned (absolute cwd p)
  := by
  rw [absolute]
  split
  · next habsolute => exact isCleaned_clean habsolute
  · rw [join_pair hcwd hp]
    exact isCleaned_clean (isAbsolute_append hcwd _)

/-! ### Joined names -/

theorem head?_join {name : Text} (hname : IsName name) (rest : List Text) :
  (Text.join "/" (name :: rest)).head? = name.head?
  := by
  cases name with
  | nil => exact absurd rfl hname.nonempty
  | cons b name =>
      cases rest with
      | nil => rfl
      | cons n rest => rfl

theorem isAbsolute_join {name : Text} (hname : IsName name) (rest : List Text) :
  isAbsolute (Text.join "/" (name :: rest)) = false
  := by
  rw [isAbsolute, head?_join hname, beq_eq_false_iff_ne]
  intro hhead
  exact hname.slash (List.mem_of_head? hhead)

theorem parent_prefix_join {name : Text} (rest : List Text) :
  parent <+: Text.join "/" (name :: rest) ↔ parent <+: name
  := by
  cases rest with
  | nil => rfl
  | cons n rest =>
      change parent <+: Text.join [slash] _ ↔ _
      rw [Text.join_cons_cons]
      apply Text.prefix_append_cons_iff
      decide

theorem join_ne_here (hne : names ≠ []) (h : ∀ n ∈ names, IsName n) :
  Text.join "/" names ≠ here
  := by
  intro hhere
  have hsplit : Text.splitByte slash (Text.join "/" names) = names :=
    Text.splitByte_join hne fun n hn => (h n hn).slash
  have hmem : here ∈ names := by
    rw [← hsplit, hhere]
    apply List.mem_singleton_self
  exact (h here hmem).here rfl

/-! ### The way from one path to another -/

theorem exists_shared (as bs : List Text) :
  ∃ shared, as = shared ++ (dropShared as bs).1 ∧ bs = shared ++ (dropShared as bs).2
  := by
  induction as generalizing bs with
  | nil => exact ⟨[], rfl, rfl⟩
  | cons a as ih =>
      cases bs with
      | nil => exact ⟨[], rfl, rfl⟩
      | cons b bs =>
          rw [dropShared]
          split
          · next hab =>
            obtain ⟨shared, has, hbs⟩ := ih bs
            use a :: shared
            rw [← beq_iff_eq.mp hab, List.cons_append, List.cons_append, ← has, ← hbs]
            exact ⟨rfl, rfl⟩
          · exact ⟨[], rfl, rfl⟩

theorem dropShared_append (as bs : List Text) :
  dropShared as (as ++ bs) = ([], bs)
  := by
  induction as with
  | nil => cases bs with
    | nil => rfl
    | cons b bs => rfl
  | cons a as ih => rw [List.cons_append, dropShared, if_pos (beq_self_eq_true a), ih]

/-- Between cleaned paths there is always a way. -/
theorem relativeTo?_of_isCleaned (hdir : IsCleaned dir) (hfile : IsCleaned file)
    (hne : dir ≠ file) :
  relativeTo? dir file = some (Text.join "/" ((dropShared (parts dir) (parts file)).1.map
    (fun _ => parent) ++ (dropShared (parts dir) (parts file)).2))
  := by
  have hhere : file ≠ here := by
    rintro rfl
    cases hfile.absolute
  have hup : ((dropShared (parts dir) (parts file)).1.head? == some parent) = false := by
    obtain ⟨shared, hparts, -⟩ := exists_shared (parts dir) (parts file)
    rw [beq_eq_false_iff_ne]
    intro hhead
    have hmem : parent ∈ parts dir := by
      rw [hparts]
      exact List.mem_append_right _ (List.mem_of_head? hhead)
    exact (hdir.isName parent hmem).parent rfl
  rw [relativeTo?, hdir.clean, hfile.clean, hdir.absolute, hfile.absolute]
  simp only [beq_iff_eq, hne, hhere, if_false, bne_self_eq_false, Bool.false_eq_true, hup]

/-- The ways to a file: none at all, only down, or first up. -/
inductive IsWay (dir file : Text) : Text → Prop where
  | self : dir = file → IsWay dir file here
  | down {name : Text} {rest : List Text} :
      parts file = parts dir ++ name :: rest → IsWay dir file (Text.join "/" (name :: rest))
  | up {way : Text} : ¬ parts dir <+: parts file → parent <+: way → IsWay dir file way

theorem exists_way (hdir : IsCleaned dir) (hfile : IsCleaned file) :
  ∃ way, relativeTo? dir file = some way ∧ IsWay dir file way
  := by
  by_cases hne : dir = file
  · exact ⟨here, by simp [relativeTo?, hne], .self hne⟩
  · refine ⟨_, relativeTo?_of_isCleaned hdir hfile hne, ?_⟩
    obtain ⟨shared, hup, hdown⟩ := exists_shared (parts dir) (parts file)
    rcases hways : dropShared (parts dir) (parts file) with ⟨up, down⟩
    rw [hways] at hup hdown
    dsimp only at hup hdown ⊢
    cases up with
    | nil =>
        rw [List.append_nil] at hup
        rw [← hup] at hdown
        cases down with
        | nil =>
            rw [List.append_nil] at hdown
            exact absurd (hdir.eq_of_parts_eq hfile hdown.symm) hne
        | cons name rest => exact .down hdown
    | cons n up =>
        refine .up ?_ ((parent_prefix_join _).mpr (List.prefix_refl parent))
        rintro ⟨below, hbelow⟩
        rw [← hbelow, dropShared_append] at hways
        cases hways

/-! ### Displayed paths -/

/-- What a file is displayed as, seen from a directory: the names that lead down to it, unless there
are none or the first one starts with two dots. -/
structure IsDisplayed (dir file shown : Text) : Prop where
  relative_iff : isAbsolute shown = false ↔
    ∃ name rest, parts file = parts dir ++ name :: rest ∧ ¬ parent <+: name
  relative : isAbsolute shown = false →
    ∃ below, parts file = parts dir ++ below ∧ shown = Text.join "/" below
  joined : isAbsolute shown = false → join [dir, shown] = file
  whole : isAbsolute shown → shown = file

namespace IsDisplayed

/-- The file can be told from what is displayed. -/
theorem file_eq {shown : Text} (h : IsDisplayed dir file shown) :
  file = if isAbsolute shown then shown else join [dir, shown]
  := by
  split
  · next habsolute => exact (h.whole habsolute).symm
  · next hrelative => exact (h.joined (by simpa using hrelative)).symm

theorem of_outside (hfile : IsCleaned file)
    (h : ∀ name rest, parts file = parts dir ++ name :: rest → parent <+: name) :
  IsDisplayed dir file file
  := by
  have habsolute := hfile.absolute
  constructor
  · rw [habsolute]
    simpa using h
  · simp [habsolute]
  · simp [habsolute]
  · intro _
    rfl

theorem of_below {name : Text} {rest : List Text} (hdir : IsCleaned dir) (hfile : IsCleaned file)
    (hparts : parts file = parts dir ++ name :: rest) (hname : ¬ parent <+: name) :
  IsDisplayed dir file (Text.join "/" (name :: rest))
  := by
  have hnames := hfile.isName_of_below hparts
  have hrelative := isAbsolute_join (hnames name List.mem_cons_self) rest
  have hne : Text.join "/" (name :: rest) ≠ [] := by
    intro hnil
    have hhead := head?_join (hnames name List.mem_cons_self) rest
    rw [hnil] at hhead
    exact (hnames name List.mem_cons_self).nonempty (List.head?_eq_none_iff.mp hhead.symm)
  constructor
  · exact iff_of_true hrelative ⟨name, rest, hparts, hname⟩
  · intro _
    exact ⟨name :: rest, hparts, rfl⟩
  · intro _
    rw [join_pair hdir.absolute hne, clean, isAbsolute_append hdir.absolute,
      parts_append (isAbsolute_append hdir.absolute _) (List.cons_ne_nil name rest) hnames, ← hparts,
      hfile.ofParts_parts]
  · rw [hrelative]
    intro h
    cases h

end IsDisplayed

theorem displayed_of_isCleaned {base : Text} (cwd : Text) (hbase : base.trim ≠ [])
    (hfile : IsCleaned file) :
  displayed cwd base file = match relativeTo? (absolute cwd base.trim) file with
    | some rel => if rel == here || parent.isPrefixOf rel then file else rel
    | none => file
  := by
  have hpath : absolute cwd (clean file) = file := by
    rw [hfile.clean, absolute, hfile.absolute, hfile.clean, if_pos rfl]
  rw [displayed, List.isEmpty_eq_false_iff.mpr hbase, hpath]
  rfl

/-- Of the three ways to a file only the one that leads down is displayed, unless it looks like one
that leads up. -/
theorem isDisplayed_displayed {cwd base : Text} (hcwd : isAbsolute cwd) (hbase : base.trim ≠ [])
    (hfile : IsCleaned file) :
  IsDisplayed (absolute cwd base.trim) file (displayed cwd base file)
  := by
  have hdir : IsCleaned (absolute cwd base.trim) := isCleaned_absolute hcwd hbase
  rw [displayed_of_isCleaned cwd hbase hfile]
  generalize absolute cwd base.trim = dir at hdir
  obtain ⟨way, hsome, hway⟩ := exists_way hdir hfile
  rw [hsome]
  cases hway with
  | self hself =>
      apply IsDisplayed.of_outside hfile
      intro name rest hparts
      simp [hself] at hparts
  | @down name rest hdown =>
      have hhere := join_ne_here (List.cons_ne_nil name rest) (hfile.isName_of_below hdown)
      dsimp only
      rw [beq_eq_false_iff_ne.mpr hhere, Bool.false_or]
      by_cases hname : parent <+: name
      · rw [List.isPrefixOf_iff_prefix.mpr ((parent_prefix_join rest).mpr hname), if_pos rfl]
        apply IsDisplayed.of_outside hfile
        intro name' rest' hparts
        rw [hdown, List.append_cancel_left_eq] at hparts
        obtain ⟨rfl, -⟩ := List.cons.inj hparts
        exact hname
      · rw [if_neg (mt List.isPrefixOf_iff_prefix.mp (mt (parent_prefix_join rest).mp hname))]
        exact .of_below hdir hfile hdown hname
  | up hup hparent =>
      dsimp only
      rw [List.isPrefixOf_iff_prefix.mpr hparent, Bool.or_true, if_pos rfl]
      apply IsDisplayed.of_outside hfile
      intro name rest hparts
      exact absurd ⟨name :: rest, hparts.symm⟩ hup

/-- A file is displayed as seen from the base directory, whose text counts without the blanks around
it, or as it is if the base is blank; and no two files are displayed alike. -/
theorem displayed_relative_inside_base {cwd : Text} (base : Text) (hcwd : isAbsolute cwd)
    (hfile : IsCleaned file) :
  (base.trim ≠ [] → IsDisplayed (absolute cwd base.trim) file (displayed cwd base file))
    ∧ (base.trim = [] → displayed cwd base file = file)
    ∧ ∀ file', IsCleaned file' → displayed cwd base file' = displayed cwd base file → file' = file
  := by
  have hblank : ∀ {f}, IsCleaned f → base.trim = [] → displayed cwd base f = f := by
    intro f hf hbase
    rw [displayed, hbase]
    exact hf.clean
  refine ⟨fun hbase => isDisplayed_displayed hcwd hbase hfile, hblank hfile, ?_⟩
  intro file' hfile' hsame
  by_cases hbase : base.trim = []
  · rwa [hblank hfile hbase, hblank hfile' hbase] at hsame
  · rw [(isDisplayed_displayed hcwd hbase hfile).file_eq, ← hsame]
    exact (isDisplayed_displayed hcwd hbase hfile').file_eq

theorem nestedFile_displayed_relative :
  isAbsolute "/w" ∧ IsCleaned "/w/p/a/x.tac"
    ∧ IsDisplayed "/w/p" "/w/p/a/x.tac" "a/x.tac"
    ∧ ∀ file', IsCleaned file' → displayed "/w" " p" file' = "a/x.tac" → file' = "/w/p/a/x.tac"
  := by
  have hfile : IsCleaned "/w/p/a/x.tac" := ⟨by decide +kernel, by decide +kernel⟩
  have hshown : displayed "/w" " p" "/w/p/a/x.tac" = "a/x.tac" := by decide +kernel
  have hdir : absolute "/w" (Text.trim " p") = "/w/p" := by decide +kernel
  have hcwd : isAbsolute "/w" = true := rfl
  obtain ⟨hdisplayed, -, honly⟩ := displayed_relative_inside_base " p" hcwd hfile
  rw [hshown] at honly
  rw [hshown, hdir] at hdisplayed
  exact ⟨hcwd, hfile, hdisplayed (by decide +kernel), honly⟩

/-- A name that starts with two dots need not lead up, but its file is displayed as if it did. -/
theorem dottedName_displayed_whole :
  IsCleaned "/p/..x.tac" ∧ parts "/p/..x.tac" = parts "/p" ++ [("..x.tac" : Text)]
    ∧ displayed "/" "/p" "/p/..x.tac" = "/p/..x.tac"
  := by
  refine ⟨⟨?_, ?_⟩, ?_, ?_⟩
  all_goals decide +kernel

end Path

end ThreeAddress
