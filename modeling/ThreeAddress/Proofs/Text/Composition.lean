import ThreeAddress.Proofs.Text.Decomposition

/-!
# Composing a quoted text

Composing keeps the quotes around a text and makes neither a quote nor a newline inside of it: a
quote stands on its own and joins with nothing, so it begins a segment and stays its first atom.
-/

namespace ThreeAddress

namespace Compose

/-! ### Atoms -/

/-- There is no quote and no newline among some atoms. -/
def Plain (as : List Atom) : Prop := ∀ a ∈ as, a.bytes.Unbroken

theorem plain_append {as bs : List Atom} (has : Plain as) (hbs : Plain bs) :
  Plain (as ++ bs)
  := by
  intro a ha
  obtain ha | ha := List.mem_append.mp ha
  · apply has a ha
  · apply hbs a ha

theorem plain_cons {a : Atom} {as : List Atom} :
  Plain (a :: as) ↔ a.bytes.Unbroken ∧ Plain as
  := List.forall_mem_cons

theorem plain_reverse {as : List Atom} (has : Plain as) :
  Plain as.reverse
  := by
  intro a ha
  apply has a (List.mem_reverse.mp ha)

theorem plain_nil :
  Plain []
  := by
  intro a ha
  cases ha

theorem plain_atomsOf {g : Glyph} (h : g.Ordinary) :
  Plain (atomsOf g)
  := by
  rw [atomsOf]
  split_ifs with hvalid
  · intro a ha
    obtain ⟨c, hc, rfl⟩ := List.mem_map.mp ha
    apply (isOrdinary_decompose (h.code hvalid) c hc).unbroken_ofCode
  · intro a ha
    rw [List.mem_singleton.mp ha]
    exact h.bytes

/-- A quote as an atom. -/
def quoteAtom : Atom := .ofCode 34

theorem cls_quoteAtom :
  quoteAtom.cls = 0
  := classOf_quote

theorem isStarter_quoteAtom :
  quoteAtom.isStarter
  := by
  simp [Atom.isStarter, quoteAtom, Atom.ofCode, joins_quote, classOf_quote]

theorem isDependent_quoteAtom :
  quoteAtom.isDependent = false
  := by
  have hmark : markLikeCodes.contains quoteAtom.code = false := markLike_quote
  rw [Atom.isDependent, isStarter_quoteAtom, hmark]
  rfl

theorem atomsOf_quote :
  atomsOf Glyph.quote = [quoteAtom]
  := rfl

/-! ### Segments -/

theorem plain_insertAtom {a : Atom} {segment : List Atom} (ha : a.bytes.Unbroken)
    (hsegment : Plain segment) :
  Plain (insertAtom a segment)
  := by
  induction segment with
  | nil => exact plain_cons.mpr ⟨ha, hsegment⟩
  | cons b segment ih =>
      obtain ⟨hb, hrest⟩ := plain_cons.mp hsegment
      rw [insertAtom]
      split_ifs
      · exact plain_cons.mpr ⟨hb, ih hrest⟩
      · exact plain_cons.mpr ⟨ha, hsegment⟩

/-- An atom is put behind the quote that a segment begins with. -/
theorem insertAtom_concat_quote (a : Atom) (segment : List Atom) :
  insertAtom a (segment ++ [quoteAtom]) = insertAtom a segment ++ [quoteAtom]
  := by
  induction segment with
  | nil =>
      simp [insertAtom, cls_quoteAtom]
  | cons b segment ih =>
      rw [List.cons_append, insertAtom, insertAtom]
      split_ifs
      · rw [ih, List.cons_append]
      · rfl

theorem plain_openSegment {segment as : List Atom} (hsegment : Plain segment) (has : Plain as) :
  (∀ complete ∈ (openSegment segment as).1, Plain complete) ∧ Plain (openSegment segment as).2
  := by
  induction as generalizing segment with
  | nil => exact ⟨by simp [openSegment], hsegment⟩
  | cons a as ih =>
      obtain ⟨ha, has⟩ := plain_cons.mp has
      rw [openSegment]
      split_ifs
      · obtain ⟨hcomplete, hlast⟩ := ih (plain_cons.mpr ⟨ha, plain_nil⟩) has
        exact ⟨List.forall_mem_cons.mpr ⟨hsegment, hcomplete⟩, hlast⟩
      · apply ih (plain_insertAtom ha hsegment) has

theorem plain_foldl_insertAtom {segment as : List Atom} (hsegment : Plain segment)
    (has : Plain as) :
  Plain (as.foldl (fun s a => insertAtom a s) segment)
  := by
  induction as generalizing segment with
  | nil => exact hsegment
  | cons a as ih =>
      obtain ⟨ha, has⟩ := plain_cons.mp has
      apply ih (plain_insertAtom ha hsegment) has

theorem foldl_insertAtom_concat_quote (as segment : List Atom) :
  as.foldl (fun s a => insertAtom a s) (segment ++ [quoteAtom])
    = as.foldl (fun s a => insertAtom a s) segment ++ [quoteAtom]
  := by
  induction as generalizing segment with
  | nil => rfl
  | cons a as ih => rw [List.foldl_cons, List.foldl_cons, insertAtom_concat_quote, ih]

theorem unbroken_runJoiner :
  runJoiner.bytes.Unbroken
  := by
  have hjoiner : IsOrdinary 0x34F := ⟨by decide, by decide, by decide⟩
  exact hjoiner.unbroken_ofCode

/-- A character whose atoms do not all depend on what stands before closes the open segment. -/
theorem segmentsFrom_cons (run : Nat) (segment : List Atom) (g : Glyph) (gs : List Glyph) :
  segmentsFrom run segment (g :: gs)
    = if 0 < leadCount (atomsOf g) && run + leadCount (atomsOf g) ≤ maxRun then
        segmentsFrom (run + leadCount (atomsOf g))
          ((atomsOf g).foldl (fun s a => insertAtom a s) segment) gs
      else
        (if leadCount (atomsOf g) = 0 then segment else runJoiner :: segment) ::
          (openSegment [] (atomsOf g)).1 ++
          segmentsFrom
            (if leadCount (atomsOf g) = 0 then trailCount (atomsOf g).reverse
              else leadCount (atomsOf g))
            (openSegment [] (atomsOf g)).2 gs
  := by
  rw [segmentsFrom]

theorem plain_segmentsFrom {run : Nat} {segment : List Atom} {gs : List Glyph}
    (hsegment : Plain segment) (hgs : ∀ g ∈ gs, g.Ordinary) :
  ∀ s ∈ segmentsFrom run segment gs, Plain s
  := by
  induction gs generalizing run segment with
  | nil => exact List.forall_mem_singleton.mpr hsegment
  | cons g gs ih =>
      obtain ⟨hg, hgs⟩ := List.forall_mem_cons.mp hgs
      have has := plain_atomsOf hg
      have hjoined : Plain (runJoiner :: segment) := plain_cons.mpr ⟨unbroken_runJoiner, hsegment⟩
      obtain ⟨hcomplete, hlast⟩ := plain_openSegment plain_nil has
      rw [segmentsFrom_cons]
      split
      · apply ih (plain_foldl_insertAtom hsegment has) hgs
      · intro s hs
        rw [List.cons_append, List.mem_cons, List.mem_append] at hs
        obtain rfl | hs | hs := hs
        · split
          · exact hsegment
          · exact hjoined
        · apply hcomplete s hs
        · apply ih hlast hgs s hs

/-- The segment that a quote begins goes on with atoms other than quotes, and no later segment has a
quote. -/
theorem exists_segmentsFrom_quote (run : Nat) {segment : List Atom} {gs : List Glyph}
    (hsegment : Plain segment) (hgs : ∀ g ∈ gs, g.Ordinary) :
  ∃ segment' others, segmentsFrom run (segment ++ [quoteAtom]) gs
      = (segment' ++ [quoteAtom]) :: others
    ∧ Plain segment' ∧ ∀ s ∈ others, Plain s
  := by
  induction gs generalizing run segment with
  | nil => exact ⟨segment, [], rfl, hsegment, by simp⟩
  | cons g gs ih =>
      obtain ⟨hg, hgs⟩ := List.forall_mem_cons.mp hgs
      have has := plain_atomsOf hg
      have hjoined : Plain (runJoiner :: segment) := plain_cons.mpr ⟨unbroken_runJoiner, hsegment⟩
      obtain ⟨hcomplete, hlast⟩ := plain_openSegment plain_nil has
      have hothers : ∀ run, ∀ s ∈ (openSegment [] (atomsOf g)).1 ++
          segmentsFrom run (openSegment [] (atomsOf g)).2 gs, Plain s := by
        intro run s hs
        obtain hs | hs := List.mem_append.mp hs
        · apply hcomplete s hs
        · apply plain_segmentsFrom hlast hgs s hs
      rw [segmentsFrom_cons]
      split
      · rw [foldl_insertAtom_concat_quote]
        apply ih _ (plain_foldl_insertAtom hsegment has) hgs
      · split
        · exact ⟨segment, _, rfl, hsegment, hothers _⟩
        · exact ⟨runJoiner :: segment, _, rfl, hjoined, hothers _⟩

/-- A quote closes the open segment and begins another. -/
theorem exists_segmentsFrom_cons_quote (run : Nat) (segment : List Atom) (gs : List Glyph) :
  ∃ run', segmentsFrom run segment (Glyph.quote :: gs)
    = segment :: segmentsFrom run' [quoteAtom] gs
  := by
  have hlead : leadCount (atomsOf Glyph.quote) = 0 := by
    simp [atomsOf_quote, leadCount, isDependent_quoteAtom]
  have hopen : openSegment [] (atomsOf Glyph.quote) = ([], [quoteAtom]) := by
    simp [atomsOf_quote, openSegment, insertAtom]
  use trailCount (atomsOf Glyph.quote).reverse
  rw [segmentsFrom_cons, hlead, hopen]
  simp

/-- A quote at the end is a segment of its own. -/
theorem segmentsFrom_concat_quote (run : Nat) (segment : List Atom) (gs : List Glyph) :
  segmentsFrom run segment (gs ++ [Glyph.quote]) = segmentsFrom run segment gs ++ [[quoteAtom]]
  := by
  induction gs generalizing run segment with
  | nil =>
      obtain ⟨run', hquote⟩ := exists_segmentsFrom_cons_quote run segment []
      rw [List.nil_append, hquote]
      rfl
  | cons g gs ih =>
      rw [List.cons_append, segmentsFrom_cons, segmentsFrom_cons]
      split
      · rw [ih]
      · rw [ih, List.cons_append, List.cons_append, List.cons_append, List.append_assoc]

/-! ### Joining -/

/-- A way of joining that makes neither quotes nor newlines and that leaves quotes alone. -/
structure Sober (pair : Nat → Nat → Option Nat) : Prop where
  isOrdinary : ∀ {a b c}, pair a b = some c → IsOrdinary c
  quote : ∀ b, pair 34 b = none

theorem sober_joinPair : Sober joinPair
  := ⟨isOrdinary_joinPair, joinPair_quote⟩

theorem sober_joinSyllable : Sober joinSyllable
  := ⟨isOrdinary_joinSyllable, joinSyllable_quote⟩

namespace Joining

/-- The atoms of a segment that is being composed, from the last to the first. -/
def atoms (j : Joining) : List Atom := j.held ++ j.base :: j.done

theorem atoms_settle (j : Joining) :
  j.settle.atoms = j.atoms
  := by
  obtain ⟨done, base, held⟩ := j
  cases held with
  | nil => rfl
  | cons a held => simp [settle, atoms]

/-- An atom is joined with the base, or it is put at the end. -/
theorem atoms_join (pair : Nat → Nat → Option Nat) (j : Joining) (a : Atom) :
  (j.join pair a).atoms = a :: j.atoms
    ∨ ∃ c held base done, j.atoms = held ++ base :: done ∧ pair base.code a.code = some c
      ∧ (j.join pair a).atoms = held ++ Atom.joined c :: done
  := by
  rw [join]
  have hatoms : (if j.last.cls = 0 then j.settle else j).atoms = j.atoms := by
    split_ifs
    · apply atoms_settle
    · rfl
  generalize (if j.last.cls = 0 then j.settle else j) = j' at hatoms
  split
  · next c hc =>
    right
    split_ifs at hc
    exact ⟨c, j'.held, j'.base, j'.done, hatoms.symm, hc, rfl⟩
  · left
    rw [← hatoms]
    rfl

/-- Behind some last atoms, which may be a quote, there is neither a quote nor a newline. -/
def Behind (last : List Atom) (j : Joining) : Prop := ∃ front, j.atoms = front ++ last ∧ Plain front

variable {last : List Atom} {j : Joining} {a : Atom}

theorem Behind.hold (h : Behind last j) (ha : a.bytes.Unbroken) :
  Behind last (j.hold a)
  := by
  obtain ⟨front, hatoms, hfront⟩ := h
  use a :: front
  constructor
  · rw [List.cons_append, ← hatoms]
    rfl
  · exact plain_cons.mpr ⟨ha, hfront⟩

theorem Behind.join {pair : Nat → Nat → Option Nat} (hpair : Sober pair)
    (hlast : last = [] ∨ last = [quoteAtom]) (h : Behind last j) (ha : a.bytes.Unbroken) :
  Behind last (j.join pair a)
  := by
  obtain hhold | ⟨c, held, base, done, hatoms, hc, hjoin⟩ := atoms_join pair j a
  · obtain ⟨front, hatoms, hfront⟩ := h.hold ha
    exact ⟨front, hhold.trans hatoms, hfront⟩
  · obtain ⟨front, hfront, hplain⟩ := h
    have hc' := (hpair.isOrdinary hc).unbroken_ofCode
    rw [hatoms] at hfront
    obtain rfl | rfl := hlast
    · rw [List.append_nil] at hfront
      subst hfront
      obtain ⟨hheld, hdone⟩ := List.forall_mem_append.mp hplain
      refine ⟨_, hjoin.trans (List.append_nil _).symm, ?_⟩
      exact plain_append hheld (plain_cons.mpr ⟨hc', (plain_cons.mp hdone).2⟩)
    -- The base is not the quote, since a quote joins with nothing; so the quote is still in `done`.
    · obtain rfl | ⟨done, b, rfl⟩ := List.eq_nil_or_concat done
      · obtain ⟨rfl, hbase⟩ := List.append_inj' hfront rfl
        rw [List.cons.inj hbase |>.1] at hc
        cases (hpair.quote _).symm.trans hc
      · rw [List.concat_eq_append, ← List.cons_append, ← List.append_assoc] at hfront
        obtain ⟨rfl, hb⟩ := List.append_inj' hfront rfl
        obtain ⟨hheld, hdone⟩ := List.forall_mem_append.mp hplain
        refine ⟨held ++ Atom.joined c :: done, ?_, ?_⟩
        · rw [hjoin, List.concat_eq_append, hb, List.append_assoc, List.cons_append]
        · exact plain_append hheld (plain_cons.mpr ⟨hc', (plain_cons.mp hdone).2⟩)

theorem Behind.joinAll {syllabic : Bool} {as : List Atom}
    (hlast : last = [] ∨ last = [quoteAtom]) (h : Behind last j) (has : Plain as) :
  ∃ front, Compose.joinAll syllabic j as = (front ++ last).reverse ∧ Plain front
  := by
  induction as generalizing syllabic j with
  | nil =>
      obtain ⟨front, hatoms, hfront⟩ := h
      exact ⟨front, congrArg List.reverse hatoms, hfront⟩
  | cons a as ih =>
      obtain ⟨ha, has⟩ := plain_cons.mp has
      rw [Compose.joinAll]
      split_ifs
      · apply ih (h.join sober_joinSyllable hlast ha) has
      · apply ih (h.join sober_joinPair hlast ha) has
      · apply ih (h.hold ha) has

end Joining

theorem plain_composeSegment {as : List Atom} (has : Plain as) :
  Plain (composeSegment as)
  := by
  cases as with
  | nil => exact plain_nil
  | cons a as =>
      obtain ⟨ha, has⟩ := plain_cons.mp has
      have hbase : Joining.Behind [] { base := a } := ⟨[a], rfl, plain_cons.mpr ⟨ha, plain_nil⟩⟩
      obtain ⟨front, hjoin, hfront⟩ := hbase.joinAll (.inl rfl) has
      intro b hb
      rw [composeSegment, hjoin, List.append_nil, List.mem_reverse] at hb
      exact hfront b hb

/-- A segment that begins with a quote is composed to one that begins with it. -/
theorem composeSegment_quote {as : List Atom} (has : Plain as) :
  ∃ bs, composeSegment (quoteAtom :: as) = quoteAtom :: bs ∧ Plain bs
  := by
  have hbase : Joining.Behind [quoteAtom] { base := quoteAtom } := ⟨[], rfl, plain_nil⟩
  obtain ⟨front, hjoin, hfront⟩ := hbase.joinAll (.inr rfl) has
  refine ⟨front.reverse, ?_, ?_⟩
  · rw [composeSegment, hjoin, List.reverse_append, List.reverse_singleton, List.singleton_append]
  · apply plain_reverse hfront

end Compose

open Compose in
/-- The normal form of a quoted text is quoted, and it has neither a quote nor a newline between the
quotes. -/
theorem Text.normal_quoted {body : Text} (hbody : body.Unbroken) :
  ∃ body' : Text, Text.normal (34 :: (body ++ [34])) = 34 :: (body' ++ [34]) ∧ body'.Unbroken
  := by
  rw [normal]
  split_ifs
  · exact ⟨body, rfl, hbody⟩
  · obtain ⟨hglyphs, hordinary⟩ := Text.glyphs_concat_quote hbody
    have hquoted : Text.glyphs (34 :: (body ++ [34]))
        = Glyph.quote :: body.glyphs ++ [Glyph.quote] := by
      rw [glyphs, List.cons_append, ← hglyphs]
      rfl
    obtain ⟨run, hfirst⟩ := exists_segmentsFrom_cons_quote 0 [] body.glyphs
    obtain ⟨segment, others, hsegments, hsegment, hothers⟩ :=
      exists_segmentsFrom_quote run plain_nil hordinary
    obtain ⟨as, hcompose, has⟩ := composeSegment_quote (plain_reverse hsegment)
    have hbytes : quoteAtom.bytes = [34] := rfl
    have hnil : composeSegment [] = [] := rfl
    have hlast : composeSegment [quoteAtom] = [quoteAtom] := rfl
    rw [List.nil_append] at hsegments
    rw [hquoted, segmentsFrom_concat_quote, hfirst, hsegments]
    refine ⟨as.flatMap (·.bytes) ++
      others.flatMap fun s => (composeSegment s.reverse).flatMap (·.bytes), ?_, ?_⟩
    · simp [hnil, hcompose, hbytes, hlast]
    · apply Text.Unbroken.append_iff.mpr
      constructor
      · apply Text.Unbroken.flatMap has
      · apply Text.Unbroken.flatMap
        intro s hs
        apply Text.Unbroken.flatMap (plain_composeSegment (plain_reverse (hothers s hs)))

instance : LawfulComposing := ⟨Text.normal_quoted⟩

end ThreeAddress
