import ThreeAddress.Proofs.Syntax.Acceptance
import ThreeAddress.Proofs.Syntax.Forest
import ThreeAddress.Syntax.Spans

/-!
# Spans nest

The tokens of a file stand one after the other.  `File.Spread` says so of a list of spans between
two offsets, and everything that the parser makes is made of pieces that are spread between the
first token taken and the last one.  A node spans its first piece to its last one; its parts and
names are some of the pieces in between, which is why they lie inside and why statements of one
block are disjoint and in order.  Nothing is assumed of what fails in between.
-/

namespace ThreeAddress

namespace Span

/-- The span `s` lies within the span `t`. -/
def Inside (s t : Span) : Prop := s.file = t.file ∧ t.start ≤ s.start ∧ s.stop ≤ t.stop

/-- From a span to one that begins and ends no earlier. -/
theorem cover_eq {s t : Span} (hfile : s.file = t.file) (hstart : s.start ≤ t.start)
    (hstop : s.stop ≤ t.stop) :
  s.cover t = ⟨s.file, s.start, t.stop⟩
  := by
  rw [cover, if_pos hfile, show min s.start t.start = s.start from if_pos hstart,
    show max s.stop t.stop = t.stop from if_pos hstop]

end Span

namespace File

/-! ### Spans that follow one another -/

/-- Spans of a file that are not empty and follow one another between two offsets. -/
inductive Spread (f : File) : Nat → List Span → Nat → Prop
  | nil {lo hi : Nat} (h : lo ≤ hi) : Spread f lo [] hi
  | cons {lo hi : Nat} {s : Span} {ss : List Span} (hfile : s.file = f.id)
    (hlo : lo ≤ s.start.toNat) (hne : s.start < s.stop) (h : Spread f s.stop.toNat ss hi) :
    Spread f lo (s :: ss) hi

namespace Spread

variable {f : File} {lo mid hi : Nat} {s t : Span} {ss ts : List Span}

theorem le (h : f.Spread lo ss hi) :
  lo ≤ hi
  := by
  induction h with
  | nil h => exact h
  | cons _ hlo hne _ ih =>
      rw [UInt32.lt_iff_toNat_lt] at hne
      omega

theorem append (h : f.Spread lo ss mid) (h' : f.Spread mid ts hi) :
  f.Spread lo (ss ++ ts) hi
  := by
  induction h with
  | nil h =>
      cases h' with
      | nil h' => exact .nil (Nat.le_trans h h')
      | cons hfile hlo hne h' => exact .cons hfile (Nat.le_trans h hlo) hne h'
  | cons hfile hlo hne _ ih => exact .cons hfile hlo hne (ih h')

theorem split (h : f.Spread lo (ss ++ ts) hi) :
  ∃ mid, f.Spread lo ss mid ∧ f.Spread mid ts hi
  := by
  induction ss generalizing lo with
  | nil => exact ⟨lo, .nil (Nat.le_refl lo), h⟩
  | cons s ss ih =>
      obtain - | ⟨hfile, hlo, hne, h⟩ := h
      obtain ⟨mid, h, h'⟩ := ih h
      exact ⟨mid, .cons hfile hlo hne h, h'⟩

theorem of_mem (h : f.Spread lo ss hi) (hs : s ∈ ss) :
  s.file = f.id ∧ lo ≤ s.start.toNat ∧ s.start < s.stop ∧ s.stop.toNat ≤ hi
  := by
  induction h with
  | nil => cases hs
  | cons hfile hlo hne h ih =>
      obtain rfl | hs := List.mem_cons.mp hs
      · exact ⟨hfile, hlo, hne, h.le⟩
      · obtain ⟨hfile', hlo', hne', hhi'⟩ := ih hs
        rw [UInt32.lt_iff_toNat_lt] at hne
        exact ⟨hfile', by omega, hne', hhi'⟩

/-- Spans that are spread are disjoint and in order. -/
theorem pairwise (h : f.Spread lo ss hi) :
  ss.Pairwise fun a b => a.stop ≤ b.start
  := by
  induction h with
  | nil => apply List.Pairwise.nil
  | cons _ _ _ h ih =>
      apply List.pairwise_cons.mpr
      use fun b hb => UInt32.le_iff_toNat_le.mpr (h.of_mem hb).2.1

theorem from_first (h : f.Spread lo (s :: ss) hi) :
  f.Spread s.start.toNat (s :: ss) hi
  := by
  obtain - | ⟨hfile, -, hne, h⟩ := h
  exact .cons hfile (Nat.le_refl _) hne h

/-- Spans are spread between the beginning of the first and the end of the last. -/
theorem tight (h : f.Spread lo ss hi) (hs : ss.head? = some s) (ht : ss.getLast? = some t) :
  f.Spread s.start.toNat ss t.stop.toNat
  := by
  induction h generalizing s with
  | nil => cases hs
  | @cons lo hi s' ss hfile hlo hne h ih =>
      cases hs
      apply Spread.cons hfile (Nat.le_refl _) hne
      cases h with
      | nil =>
          cases ht
          exact .nil (Nat.le_refl _)
      | cons hfile' hlo' hne' h' =>
          have hrest := ih rfl ht
          obtain - | ⟨-, -, -, hrest⟩ := hrest
          exact .cons hfile' hlo' hne' hrest

/-- The span that covers the first and the last of some spans holds all of them. -/
theorem covers (h : f.Spread lo ss hi) (hs : ss.head? = some s) (ht : ss.getLast? = some t) :
  s.cover t = ⟨f.id, s.start, t.stop⟩ ∧ s.start < t.stop ∧ lo ≤ s.start.toNat
    ∧ t.stop.toNat ≤ hi
  := by
  have hmem := h.of_mem (List.mem_of_mem_head? hs)
  have hmem' := h.of_mem (List.mem_of_mem_getLast? ht)
  have htight := h.tight hs ht
  have hfirst := htight.of_mem (List.mem_of_mem_head? hs)
  have hlast := htight.of_mem (List.mem_of_mem_getLast? ht)
  have hstart := UInt32.le_iff_toNat_le.mpr hlast.2.1
  have hstop := UInt32.le_iff_toNat_le.mpr hfirst.2.2.2
  have hfile : s.file = t.file := hmem.1.trans hmem'.1.symm
  rw [Span.cover_eq hfile hstart hstop, hmem.1]
  exact ⟨rfl, UInt32.lt_of_lt_of_le hmem.2.2.1 hstop, hmem.2.1, hmem'.2.2.2⟩

/-- A span that holds all of some spans, in their place. -/
theorem merge (h : f.Spread lo ss hi) (hs : ss.head? = some s) (ht : ss.getLast? = some t) :
  f.Spread lo [s.cover t] hi
  := by
  obtain ⟨hcover, hne, hlo, hhi⟩ := h.covers hs ht
  rw [hcover]
  exact .cons rfl hlo hne (.nil hhi)

end Spread

end File

namespace Tree

variable {f : File} {t t' : Tree} {n : NodeRef} {roots : List NodeRef}

/-! ### Nodes around their parts -/

/-- What stands at `span` has its parts and names inside, and lists of statements among the parts
are disjoint and in order. -/
structure Encloses (t : Tree) (f : File) (span : Span) (refs : List NodeRef) (names : List Span)
    (bodies : List (List StmtId)) : Prop where
  file_eq : span.file = f.id
  nonempty : span.start < span.stop
  parts : ∀ c ∈ refs, (t.place c).Inside span
  names : ∀ name ∈ names, name.Inside span
  bodies : ∀ body ∈ bodies,
    (body.map fun id => t.place (.stmt id)).Pairwise fun a b => a.stop ≤ b.start

/-- Every node of the arenas encloses its parts. -/
structure Nested (t : Tree) (f : File) : Prop where
  expr : ∀ id node, t.expr? id = some node →
    t.Encloses f node.span node.form.refs node.form.names []
  stmt : ∀ id node, t.stmt? id = some node →
    t.Encloses f node.span node.form.refs node.form.names node.form.bodies

/-- Nodes that were made out of spans spread inside another one. -/
theorem encloses_of_spread {span : Span} {refs : List NodeRef} {names spans : List Span}
    {bodies : List (List StmtId)} (hfile : span.file = f.id) (hne : span.start < span.stop)
    (h : f.Spread span.start.toNat spans span.stop.toNat)
    (hrefs : (refs.map t.place).Sublist spans) (hnames : names ⊆ spans)
    (hbodies : ∀ body ∈ bodies, (body.map NodeRef.stmt).Sublist refs) :
  t.Encloses f span refs names bodies
  := by
  have hinside : ∀ s ∈ spans, s.Inside span := by
    intro s hs
    obtain ⟨hfile', hstart, -, hstop⟩ := h.of_mem hs
    exact ⟨hfile'.trans hfile.symm, UInt32.le_iff_toNat_le.mpr hstart,
      UInt32.le_iff_toNat_le.mpr hstop⟩
  constructor
  · exact hfile
  · exact hne
  · intro c hc
    apply hinside _ (hrefs.subset (List.mem_map_of_mem hc))
  · intro name hname
    apply hinside _ (hnames hname)
  · intro body hbody
    have hsub := ((hbodies body hbody).map t.place).trans hrefs
    rw [List.map_map] at hsub
    apply h.pairwise.sublist hsub

/-- A node stays where it is. -/
theorem Extends.place_eq (hext : t.Extends t') (hn : t.Resolves n) (hne : n ≠ .program) :
  t'.place n = t.place n
  := by
  cases n with
  | program => contradiction
  | stmt id =>
      obtain ⟨node, hnode, -⟩ := hn
      rw [place, place, hext.stmt?_eq_some hnode, hnode]
  | expr id =>
      obtain ⟨node, hnode, -⟩ := hn
      rw [place, place, exprSpan_eq_of_expr? (hext.expr?_eq_some hnode),
        exprSpan_eq_of_expr? hnode]

theorem Encloses.mono {span : Span} {refs : List NodeRef} {names : List Span}
    {bodies : List (List StmtId)} (h : t.Encloses f span refs names bodies)
    (hplace : ∀ c ∈ refs, t'.place c = t.place c)
    (hbodies : ∀ body ∈ bodies, ∀ id ∈ body, .stmt id ∈ refs) :
  t'.Encloses f span refs names bodies
  := by
  constructor
  · exact h.file_eq
  · exact h.nonempty
  · intro c hc
    rw [hplace c hc]
    apply h.parts c hc
  · exact h.names
  · intro body hbody
    have hsame : (body.map fun id => t'.place (.stmt id)) = body.map fun id => t.place (.stmt id) :=
      List.map_congr_left fun id hid => hplace _ (hbodies body hbody id hid)
    rw [hsame]
    apply h.bodies body hbody

end Tree

theorem StmtForm.sublist_refs {form : StmtForm} {body : List StmtId} (h : body ∈ form.bodies) :
  (body.map NodeRef.stmt).Sublist form.refs
  := by
  apply List.Sublist.trans _ (List.sublist_append_right _ _)
  apply List.Sublist.map
  apply List.sublist_flatten_of_mem h

theorem StmtForm.mem_refs {form : StmtForm} {body : List StmtId} (h : body ∈ form.bodies)
    {id : StmtId} (hid : id ∈ body) :
  .stmt id ∈ form.refs
  := (form.sublist_refs h).subset (List.mem_map_of_mem hid)

namespace Tree

variable {f : File} {t t' : Tree} {n : NodeRef} {roots : List NodeRef}

theorem parts_expr {id : ExprId} {node : ExprNode} (h : t.expr? id = some node) :
  t.parts (.expr id) = node.form.refs
  := by
  rw [parts, h]
  rfl

theorem parts_stmt {id : StmtId} {node : StmtNode} (h : t.stmt? id = some node) :
  t.parts (.stmt id) = node.form.refs
  := by
  rw [parts, h]
  rfl

/-- The nodes that were there before a node was added still enclose their parts. -/
theorem Nested.mono (h : t.Nested f) (hforest : t.Forest roots) (hext : t.Extends t')
    (hexpr : ∀ id node, t'.expr? id = some node → t.expr? id = none →
      t'.Encloses f node.span node.form.refs node.form.names [])
    (hstmt : ∀ id node, t'.stmt? id = some node → t.stmt? id = none →
      t'.Encloses f node.span node.form.refs node.form.names node.form.bodies) :
  t'.Nested f
  := by
  have hplace : ∀ p, ∀ c ∈ t.parts p, t'.place c = t.place c := by
    intro p c hc
    apply hext.place_eq (hforest.resolves p c hc)
    rintro rfl
    apply program_notMem_parts t p hc
  constructor
  · intro id node hnode
    cases hold : t.expr? id with
    | none => apply hexpr id node hnode hold
    | some old =>
        rw [hext.expr?_eq_some hold] at hnode
        cases hnode
        apply (h.expr id node hold).mono _ nofun
        rw [← parts_expr hold]
        apply hplace
  · intro id node hnode
    cases hold : t.stmt? id with
    | none => apply hstmt id node hnode hold
    | some old =>
        rw [hext.stmt?_eq_some hold] at hnode
        cases hnode
        apply (h.stmt id node hold).mono
        · rw [← parts_stmt hold]
          apply hplace
        · intro body hbody child hchild
          apply StmtForm.mem_refs hbody hchild

theorem Nested.addExpr {span : Span} {form : ExprForm} (h : t.Nested f) (hforest : t.Forest roots)
    (hform : (t.addExpr span form).1.Encloses f span form.refs form.names []) :
  (t.addExpr span form).1.Nested f
  := by
  apply h.mono hforest (.addExpr t span form)
  · intro id node hnode hnone
    rw [hforest.filed.exprs.eq_of_node?_add form.kindNumber_lt hnode hnone]
    exact hform
  · intro id node hnode hnone
    cases hnode.symm.trans hnone

theorem Nested.addStmt {span : Span} {form : StmtForm} (h : t.Nested f) (hforest : t.Forest roots)
    (hform : (t.addStmt span form).1.Encloses f span form.refs form.names form.bodies) :
  (t.addStmt span form).1.Nested f
  := by
  apply h.mono hforest (.addStmt t span form)
  · intro id node hnode hnone
    cases hnode.symm.trans hnone
  · intro id node hnode hnone
    rw [hforest.filed.stmts.eq_of_node?_add form.kindNumber_lt hnode hnone]
    exact hform

theorem Nested.empty (f : File) :
  Nested {} f
  := by
  constructor
  · rintro (_ | id) node hnode <;> cases hnode
  · rintro (_ | id) node hnode <;> cases hnode

theorem place_addExpr (t : Tree) (span : Span) (form : ExprForm) :
  (t.addExpr span form).1.place (.expr (t.addExpr span form).2) = span
  := exprSpan_eq_of_expr? (expr?_addExpr t span form)

theorem place_addStmt (t : Tree) (span : Span) (form : StmtForm) :
  (t.addStmt span form).1.place (.stmt (t.addStmt span form).2) = span
  := by
  rw [place, stmt?_addStmt]
  rfl

/-- Nodes that can be referred to stay where they are. -/
theorem Forest.map_place_eq {refs : List NodeRef} (h : t.Forest roots) (hext : t.Extends t')
    (hrefs : refs ⊆ roots) (hne : .program ∉ refs) :
  refs.map t'.place = refs.map t.place
  := by
  apply List.map_congr_left
  intro c hc
  apply hext.place_eq (h.roots_resolve c (hrefs hc))
  rintro rfl
  contradiction

end Tree

namespace Builds

variable {f : File} {o : ParseOptions} {s s' : ParseState} {made roots : List NodeRef}
variable {spans : List Span} {lo mid mid' hi : Nat}

/-- Only statements and expressions are made. -/
theorem program_notMem (h : Builds o s made spans s') :
  .program ∉ made
  := by
  induction h with
  | append _ _ ih ih' => simp [ih, ih']
  | _ => simp

/-- The span from the first token to the last one. -/
theorem cover_last {tok : Token} {rest : List Token} (h : Builds o s made spans s')
    (hs : s.rest = tok :: rest) (hspans : spans ≠ [])
    (hrest : f.Spread lo (s.rest.map (·.span)) hi) :
  tok.span.cover s'.last = ⟨f.id, tok.span.start, s'.last.stop⟩
    ∧ tok.span.start < s'.last.stop ∧ lo ≤ tok.span.start.toNat
  := by
  obtain ⟨ts, htaken, hlength, -, hlast⟩ := h.takes
  rw [htaken, List.map_append] at hrest
  obtain ⟨mid, hts, -⟩ := hrest.split
  obtain _ | ⟨tok', ts⟩ := ts
  · cases spans with
    | nil => contradiction
    | cons => cases hlength
  · rw [hs] at htaken
    cases htaken
    have hfirst : ((tok :: ts).map (·.span)).head? = some tok.span := rfl
    have hend : ((tok :: ts).map (·.span)).getLast? = some s'.last := by
      rw [hlast, List.getLast?_map]
      rw [List.getLast?_eq_some_getLast (List.cons_ne_nil _ _)]
      rfl
    obtain ⟨hcover, hne, hlo, -⟩ := hts.covers hfirst hend
    exact ⟨hcover, hne, hlo⟩

/-- On the way to `s'`, the spans of what was taken are spread between `lo` and `mid`, those of the
tokens that are left between `mid` and `hi`, and what was made stands among the former. -/
structure Laid (f : File) (s' : ParseState) (made : List NodeRef) (spans : List Span)
    (lo mid hi : Nat) : Prop where
  taken : f.Spread lo spans mid
  left : f.Spread mid (s'.rest.map (·.span)) hi
  mid_of_nil : spans = [] → mid = lo
  mid_of_ne_nil : spans ≠ [] → mid = s'.last.stop.toNat
  nested : s'.tree.Nested f
  made : (made.map s'.tree.place).Sublist spans

theorem Laid.nothing (hnested : s.tree.Nested f) (hrest : f.Spread lo (s.rest.map (·.span)) hi) :
  Laid f s [] [] lo lo hi
  where
    taken := .nil (Nat.le_refl lo)
    left := hrest
    mid_of_nil := fun _ => rfl
    mid_of_ne_nil := nofun
    nested := hnested
    made := .slnil

theorem Laid.append {s₂ : ParseState} {made' : List NodeRef} {spans' : List Span}
    (h : Laid f s' made spans lo mid hi) (h' : Laid f s₂ made' spans' mid mid' hi)
    (hm : Builds o s made spans s') (hm' : Builds o s' made' spans' s₂)
    (hforest : s'.tree.Forest (roots ++ made)) :
  Laid f s₂ (made ++ made') (spans ++ spans') lo mid' hi
  := by
  constructor
  case taken => exact h.taken.append h'.taken
  case left => exact h'.left
  case mid_of_nil =>
    intro hnil
    obtain ⟨hspans, hspans'⟩ := List.append_eq_nil_iff.mp hnil
    rw [h'.mid_of_nil hspans', h.mid_of_nil hspans]
  case mid_of_ne_nil =>
    intro hne
    by_cases hspans' : spans' = []
    · rw [hspans', List.append_nil] at hne
      obtain ⟨ts, -, -, hnone, hsame⟩ := hm'.takes
      rw [h'.mid_of_nil hspans', h.mid_of_ne_nil hne, hsame, hnone hspans']
      rfl
    · apply h'.mid_of_ne_nil hspans'
  case nested => exact h'.nested
  case made =>
    rw [List.map_append, hforest.map_place_eq hm'.grows (List.subset_append_right _ _)
      hm.program_notMem]
    apply h.made.append h'.made

/-- An expression stands where its first token and its last one stand. -/
theorem Laid.addExpr {form : ExprForm} {first last : Span}
    (h : Laid f s' form.refs spans lo mid hi) (hm : Builds o s form.refs spans s')
    (hforest : s'.tree.Forest (roots ++ form.refs)) (hnames : form.names ⊆ spans)
    (hfirst : spans.head? = some first) (hlast : spans.getLast? = some last) :
  Laid f (s'.addExpr (first.cover last) form).2
    [.expr (s'.addExpr (first.cover last) form).1] [first.cover last] lo mid hi
  := by
  constructor
  case taken => exact h.taken.merge hfirst hlast
  case left => exact h.left
  case mid_of_nil => exact nofun
  case mid_of_ne_nil =>
    exact fun _ => h.mid_of_ne_nil (List.ne_nil_of_mem (List.mem_of_mem_head? hfirst))
  case nested =>
    obtain ⟨hcover, hpos, -, -⟩ := h.taken.covers hfirst hlast
    have htight := h.taken.tight hfirst hlast
    apply h.nested.addExpr hforest
    rw [hcover]
    refine Tree.encloses_of_spread rfl hpos htight ?_ hnames nofun
    rw [hforest.map_place_eq (.addExpr ..) (List.subset_append_right _ _) hm.program_notMem]
    exact h.made
  case made =>
    have hplace : (s'.addExpr (first.cover last) form).2.tree.place
        (.expr (s'.addExpr (first.cover last) form).1) = first.cover last :=
      s'.tree.place_addExpr (first.cover last) form
    rw [List.map_singleton, hplace]

/-- A statement stands where its first token and the last one that was taken stand. -/
theorem Laid.addStmt {form : StmtForm} {start : Span}
    (h : Laid f s' form.refs spans start.start.toNat mid hi) (hm : Builds o s form.refs spans s')
    (hforest : s'.tree.Forest (roots ++ form.refs)) (hnames : form.names ⊆ spans)
    (hne : spans ≠ []) (hcover : start.cover s'.last = ⟨f.id, start.start, s'.last.stop⟩)
    (hpos : start.start < s'.last.stop) (hlo : lo ≤ start.start.toNat) :
  Laid f (s'.addStmt (start.cover s'.last) form).2
    [.stmt (s'.addStmt (start.cover s'.last) form).1] [start.cover s'.last] lo mid hi
  := by
  have hmid := h.mid_of_ne_nil hne
  constructor
  case taken =>
    rw [hcover, hmid]
    exact .cons rfl hlo hpos (.nil (Nat.le_refl _))
  case left => exact h.left
  case mid_of_nil => exact nofun
  case mid_of_ne_nil => exact fun _ => hmid
  case nested =>
    apply h.nested.addStmt hforest
    rw [hcover]
    refine Tree.encloses_of_spread rfl hpos (hmid ▸ h.taken) ?_ hnames
      fun _ => StmtForm.sublist_refs
    rw [hforest.map_place_eq (.addStmt ..) (List.subset_append_right _ _) hm.program_notMem]
    exact h.made
  case made =>
    have hplace : (s'.addStmt (start.cover s'.last) form).2.tree.place
        (.stmt (s'.addStmt (start.cover s'.last) form).1) = start.cover s'.last :=
      s'.tree.place_addStmt (start.cover s'.last) form
    rw [List.map_singleton, hplace]

/-- Whatever is made out of tokens that are spread is laid out over them. -/
theorem laid (hm : Builds o s made spans s') (hforest : s.tree.Forest roots)
    (hnested : s.tree.Nested f) (hrest : f.Spread lo (s.rest.map (·.span)) hi) :
  ∃ mid, Laid f s' made spans lo mid hi
  := by
  induction hm generalizing lo roots with
  | nothing => exact ⟨lo, .nothing hnested hrest⟩
  | @take s tok rest hs =>
      rw [hs] at hrest
      obtain - | ⟨hfile, hlo, hne, hrest⟩ := hrest
      exact ⟨_, .cons hfile hlo hne (.nil (Nat.le_refl _)), hrest, nofun, fun _ => rfl, hnested,
        List.nil_sublist _⟩
  | @report s p opened =>
      obtain ⟨errors, reports, heq⟩ := ParseState.report_eq o s p opened
      rw [heq]
      exact ⟨lo, .nothing hnested hrest⟩
  | append hm hm' ih ih' =>
      obtain ⟨mid, h⟩ := ih hforest hnested hrest
      have hforest' := hm.forest hforest
      obtain ⟨mid', h'⟩ := ih' hforest' h.nested h.left
      exact ⟨mid', h.append h' hm hm' hforest'⟩
  | forget hm ih =>
      obtain ⟨mid, h⟩ := ih hforest hnested hrest
      exact ⟨mid, { h with made := List.nil_sublist _ }⟩
  | expr hm hknown hnames hfirst hlast ih =>
      obtain ⟨mid, h⟩ := ih hforest hnested hrest
      exact ⟨mid, h.addExpr hm (hm.forest hforest) hnames hfirst hlast⟩
  | stmt hs hm hknown hnames hne ih =>
      obtain ⟨hcover, hpos, hlo⟩ := hm.cover_last hs hne hrest
      have hfrom := (hs ▸ hrest).from_first
      rw [← List.map_cons, ← hs] at hfrom
      obtain ⟨mid, h⟩ := ih hforest hnested hfrom
      exact ⟨mid, h.addStmt hm (hm.forest hforest) hnames hne hcover hpos hlo⟩

end Builds

/-! ### The check of spans -/

namespace Tree

variable {f : File} {t : Tree} {roots : List NodeRef}

theorem Resolves.ne_zero {id : StmtId} (h : t.Resolves (.stmt id)) :
  id ≠ 0
  := by
  rintro rfl
  obtain ⟨node, hnode, -⟩ := h
  cases hnode

/-- The span of a statement as it is read is the place of its node. -/
theorem span_stmtFormTo (t : Tree) (depth : Nat) (span : Span) (form : StmtForm) :
  (t.stmtFormTo depth span form).span = span
  := by
  cases form <;> rfl

theorem spanProblem?_eq_none {st : Stmt} {file : FileId} {parent : Span}
    (hfile : st.span.file = file) (hne : st.span.start < st.span.stop)
    (hinside : st.span.Inside parent) :
  st.spanProblem? file parent = none
  := by
  obtain ⟨-, hstart, hstop⟩ := hinside
  have hempty : ¬ st.span.stop ≤ st.span.start := UInt32.not_le.mpr hne
  have hout : ¬ (st.span.start < parent.start ∨ parent.stop < st.span.stop) := by
    rintro (h | h)
    · exact UInt32.not_lt.mpr hstart h
    · exact UInt32.not_lt.mpr hstop h
  simp [Stmt.spanProblem?, hempty, hfile, hout]

theorem checkAllSpans_eq_none {file : FileId} {parent : Span} {ss : List Stmt}
    (h : ∀ st ∈ ss, Stmt.checkSpans file parent st = none) :
  Stmt.checkAllSpans file parent ss = none
  := by
  induction ss with
  | nil => rw [Stmt.checkAllSpans]
  | cons st ss ih =>
      obtain ⟨hst, hss⟩ := List.forall_mem_cons.mp h
      rw [Stmt.checkAllSpans, hst, ih hss]
      rfl

/-- A statement passes the check if its own span and all lists of statements in it do. -/
theorem checkSpans_stmtFormTo {file : FileId} {parent span : Span} {depth : Nat} {form : StmtForm}
    (hknown : form.IsKnown)
    (hown : (t.stmtFormTo depth span form).spanProblem? file parent = none)
    (hbodies : ∀ body ∈ form.bodies,
      Stmt.checkAllSpans file span (body.map (t.stmtTo depth)) = none) :
  Stmt.checkSpans file parent (t.stmtFormTo depth span form) = none
  := by
  cases form with
  | ifElse cond thenBody elseBody hasElse =>
      have hthen := hbodies thenBody (by simp [StmtForm.bodies])
      have helse := hbodies elseBody (by simp [StmtForm.bodies])
      rw [stmtFormTo] at hown ⊢
      rw [Stmt.checkSpans, hown, hthen, helse]
      rfl
  | «while» cond body =>
      have hbody := hbodies body (by simp [StmtForm.bodies])
      rw [stmtFormTo] at hown ⊢
      rw [Stmt.checkSpans, hown, hbody]
      rfl
  | function name nameSpan params body =>
      have hbody := hbodies body (by simp [StmtForm.bodies])
      rw [stmtFormTo] at hown ⊢
      rw [Stmt.checkSpans, hown, hbody]
      rfl
  | unknown code => cases hknown code rfl
  | _ =>
      rw [stmtFormTo] at hown ⊢
      rw [Stmt.checkSpans, hown]
      all_goals simp

/-- Statements that lie inside their parents pass the check. -/
theorem checkSpans_stmtTo (hforest : t.Forest roots) (hnested : t.Nested f) {parent : Span}
    {id : StmtId} (hid : t.Resolves (.stmt id)) (hinside : (t.place (.stmt id)).Inside parent)
    {depth : Nat} (hdepth : id ≤ depth) :
  Stmt.checkSpans f.id parent (t.stmtTo depth id) = none
  := by
  induction depth generalizing id parent with
  | zero =>
      cases Nat.le_zero.mp hdepth
      cases hid.ne_zero rfl
  | succ depth ih =>
      obtain ⟨node, hnode, hknown⟩ := hid
      have hencloses := hnested.stmt id node hnode
      rw [place, hnode] at hinside
      rw [stmtTo_succ, hnode]
      apply checkSpans_stmtFormTo hknown
      · apply spanProblem?_eq_none
        · rw [span_stmtFormTo, hencloses.file_eq]
        · rw [span_stmtFormTo]
          exact hencloses.nonempty
        · rw [span_stmtFormTo]
          exact hinside
      · intro body hbody
        apply checkAllSpans_eq_none
        intro st hst
        obtain ⟨child, hchild, rfl⟩ := List.mem_map.mp hst
        have href := StmtForm.mem_refs hbody hchild
        have hpart : .stmt child ∈ t.parts (.stmt id) := by
          rw [parts_stmt hnode]
          exact href
        have hbefore : child < id := hforest.before _ _ hpart
        apply ih (hforest.resolves _ _ hpart) (hencloses.parts _ href)
        apply Nat.le_of_lt_succ (Nat.lt_of_lt_of_le hbefore hdepth)

/-! ### Programs -/

/-- Spans nest: the check of spans finds nothing, every reachable node has a span that is not empty,
parts, names and parameters lie inside the node that they belong to, and the statements of one list
are disjoint and in order. -/
structure SpansNest (t : Tree) (f : File) : Prop where
  checked : t.checkSpans (some f) = none
  nonempty : ∀ n, t.Reachable n → n ≠ .program →
    (t.place n).file = f.id ∧ (t.place n).start < (t.place n).stop
  parts_inside : ∀ n, t.Reachable n → ∀ c ∈ t.parts n, (t.place c).Inside (t.place n)
  names_inside : ∀ n, t.Reachable n → ∀ name ∈ t.names n, name.Inside (t.place n)
  bodies_apart : ∀ n, t.Reachable n → ∀ body ∈ t.bodies n,
    (body.map fun id => t.place (.stmt id)).Pairwise fun a b => a.stop ≤ b.start

theorem Nested.encloses (h : t.Nested f) {n : NodeRef} (hn : t.Resolves n) (hne : n ≠ .program) :
  t.Encloses f (t.place n) (t.parts n) (t.names n) (t.bodies n)
  := by
  cases n with
  | program => contradiction
  | stmt id =>
      obtain ⟨node, hnode, -⟩ := hn
      have hencloses := h.stmt id node hnode
      simpa [place, parts, names, bodies, hnode] using hencloses
  | expr id =>
      obtain ⟨node, hnode, -⟩ := hn
      have hencloses := h.expr id node hnode
      simpa [place, exprSpan_eq_of_expr? hnode, parts, names, bodies, hnode] using hencloses

/-- A program passes the check if its nodes nest, and if it holds its statements unless there are
none. -/
theorem checkSpans_eq_none (hforest : t.Forest roots) (hnested : t.Nested f)
    (hprogram : t.program ≠ [] →
      t.Encloses f t.span (t.program.map .stmt) [] [t.program] ∧
        t.span.stop.toNat ≤ f.content.length) :
  t.checkSpans (some f) = none
  := by
  by_cases hempty : t.program = []
  · simp [checkSpans, hempty]
  · obtain ⟨hprogram, hstop⟩ := hprogram hempty
    have hstatements : Stmt.checkAllSpans f.id t.span t.statements = none := by
      apply checkAllSpans_eq_none
      intro st hst
      obtain ⟨id, hid, rfl⟩ := List.mem_map.mp hst
      have hpart : .stmt id ∈ t.parts .program := List.mem_map_of_mem hid
      have hresolves := hforest.resolves _ _ hpart
      apply checkSpans_stmtTo hforest hnested hresolves (hprogram.parts _ hpart)
      apply Nat.le_succ_of_le hresolves.le_size_stmts
    simp [checkSpans, hempty, hprogram.file_eq, Nat.not_lt.mpr hstop, hstatements]

/-- A program nests if its nodes do, and if it holds its statements unless there are none. -/
theorem Nested.spansNest (hforest : t.Forest roots) (hnested : t.Nested f)
    (hprogram : t.program ≠ [] →
      t.Encloses f t.span (t.program.map .stmt) [] [t.program] ∧
        t.span.stop.toNat ≤ f.content.length) :
  t.SpansNest f
  := by
  have hencloses : ∀ n, t.Reachable n → n ≠ .program →
      t.Encloses f (t.place n) (t.parts n) (t.names n) (t.bodies n) :=
    fun n hn => hnested.encloses (hforest.resolves_of_reachable hn)
  constructor
  case checked => apply checkSpans_eq_none hforest hnested hprogram
  case nonempty =>
    intro n hn hne
    exact ⟨(hencloses n hn hne).file_eq, (hencloses n hn hne).nonempty⟩
  case parts_inside =>
    intro n hn c hc
    by_cases hne : n = .program
    · subst hne
      have hprogram := hprogram (by rintro h; rw [parts, h] at hc; cases hc)
      apply hprogram.1.parts c hc
    · apply (hencloses n hn hne).parts c hc
  case names_inside =>
    intro n hn name hname
    by_cases hne : n = .program
    · subst hne
      cases hname
    · apply (hencloses n hn hne).names name hname
  case bodies_apart =>
    intro n hn body hbody
    by_cases hne : n = .program
    · subst hne
      cases List.mem_singleton.mp hbody
      by_cases hempty : t.program = []
      · rw [hempty]
        apply List.Pairwise.nil
      · apply (hprogram hempty).1.bodies _ hbody
    · apply (hencloses n hn hne).bodies body hbody

end Tree

/-! ### Files -/

/-- Tokens with nothing but trivia between them are spread over their file. -/
theorem File.spread_of_isChain {f : File} {s e : Span} {ss : List Span}
    (h : List.IsChain f.Between (s :: (ss ++ [e])))
    (hss : ∀ s' ∈ ss, s'.file = f.id ∧ s'.start < s'.stop)
    (hlast : e.start.toNat ≤ f.content.length) :
  f.Spread s.stop.toNat ss f.content.length
  := by
  induction ss generalizing s with
  | nil =>
      obtain ⟨hbetween, -⟩ := List.isChain_cons_cons.mp h
      exact .nil (Nat.le_trans (UInt32.le_iff_toNat_le.mp hbetween.stop_le) hlast)
  | cons a ss ih =>
      obtain ⟨hbetween, hchain⟩ := List.isChain_cons_cons.mp h
      obtain ⟨⟨hfile, hne⟩, hss⟩ := List.forall_mem_cons.mp hss
      exact .cons hfile (UInt32.le_iff_toNat_le.mp hbetween.stop_le) hne (ih hchain hss)

/-- The tokens of a file are spread over it. -/
theorem File.spread_fileTokens [Composing] (f : File) (hsize : f.content.length < UInt32.size) :
  f.Spread 0 ((fileTokens f.lex).map (·.span)) f.content.length
  := by
  obtain ⟨ls, stop, gap, hscans, hgap⟩ := exists_scans f.id 0 f.content
  have hholds := hscans.holds hsize rfl
  have hchain := hscans.between hsize rfl (Nat.zero_le _) hgap (s := ⟨f.id, 0, 0⟩) rfl
  rw [List.map_append] at hchain
  rw [File.fileTokens_lex hscans hgap, List.map_map]
  apply File.spread_of_isChain hchain
  · intro s hs
    obtain ⟨l, hl, rfl⟩ := List.mem_map.mp hs
    exact ⟨(hholds l hl).file_eq, (hholds l hl).start_lt⟩
  · exact Nat.le_of_eq (toNat_toUInt32 (Nat.le_refl _) hsize)

/-- Statements that were made out of all tokens of a file are a program whose spans nest. -/
theorem Builds.spansNest {f : File} {o : ParseOptions} {s s' : ParseState} {ids : List StmtId}
    {spans : List Span} (hm : Builds o s (ids.map .stmt) spans s') (hempty : s.tree = {})
    (hrest : f.Spread 0 (s.rest.map (·.span)) f.content.length) :
  Tree.SpansNest { s'.tree with span := s.peek.span.cover s'.last, program := ids } f
  := by
  have hforest₀ : s.tree.Forest [] := hempty ▸ .empty
  have hnested₀ : s.tree.Nested f := hempty ▸ .empty f
  have hforest : s'.tree.Forest (ids.map .stmt) := hm.forest hforest₀
  have hext : s'.tree.Extends { s'.tree with span := s.peek.span.cover s'.last, program := ids } :=
    ⟨.refl _, .refl _⟩
  have hplace := hforest.map_place_eq hext (List.Subset.refl _) hm.program_notMem
  have hnested :
      Tree.Nested { s'.tree with span := s.peek.span.cover s'.last, program := ids } f := by
    obtain ⟨mid, hlaid⟩ := hm.laid hforest₀ hnested₀ hrest
    apply hlaid.nested.mono hforest hext
    · intro id node hnode hnone
      cases hnode.symm.trans hnone
    · intro id node hnode hnone
      cases hnode.symm.trans hnone
  apply hnested.spansNest (@Tree.Forest.setProgram s'.tree [] ids hforest _)
  intro hids
  have hspans : spans ≠ [] := by
    rintro rfl
    obtain ⟨mid, hlaid⟩ := hm.laid hforest₀ hnested₀ hrest
    have hmade := hlaid.made
    rw [List.sublist_nil, List.map_eq_nil_iff, List.map_eq_nil_iff] at hmade
    contradiction
  obtain ⟨tok, rest, hs⟩ : ∃ tok rest, s.rest = tok :: rest := by
    obtain ⟨ts, hts, hlength, -⟩ := hm.takes
    have hpos := List.length_pos_iff.mpr hspans
    apply List.exists_cons_of_length_pos
    rw [hts, List.length_append]
    omega
  obtain ⟨hcover, hne, -⟩ := hm.cover_last hs hspans hrest
  have hfrom : f.Spread tok.span.start.toNat (s.rest.map (·.span)) f.content.length := by
    rw [hs] at hrest ⊢
    exact hrest.from_first
  obtain ⟨mid, hlaid⟩ := hm.laid hforest₀ hnested₀ hfrom
  obtain rfl := hlaid.mid_of_ne_nil hspans
  have hmade := hlaid.made
  dsimp only
  rw [ParseState.peek_cons hs, hcover] at hplace ⊢
  rw [← hplace] at hmade
  constructor
  · refine Tree.encloses_of_spread rfl hne hlaid.taken hmade nofun ?_
    intro body hbody
    rw [List.mem_singleton.mp hbody]
  · exact hlaid.left.le

/-- Whatever a file of less than four gigabytes holds, and whatever the limit on errors and the
moment of a cancellation are, the spans of its tree nest. -/
theorem parse_spans_nest [Composing] (o : ParseOptions) (f : File) (errors : Nat)
    (hsize : f.content.length < UInt32.size) :
  (parse o f.id errors f.lex).tree.SpansNest f
  := by
  obtain ⟨spans, hm⟩ := Parser.builds_stmtList (o := o) .eof (Parser.start f.id errors f.lex)
  apply hm.spansNest rfl (f.spread_fileTokens hsize)

/-- A condition that ends in an operator, a block that is not closed and no program at the end. -/
def brokenStatements : File :=
  { content := "if (a +) \x7b b \x7d\nwhile (c) \x7b print d; e = = f; g(1)" }

/-- The spans of `brokenStatements` nest, also when parsing stops at the first error. -/
theorem spans_nest_brokenStatements :
  brokenStatements.content.length < UInt32.size
    ∧ (parse {} brokenStatements.id 0 brokenStatements.lex).tree.SpansNest brokenStatements
    ∧ (parse { maxErrors := 1 } brokenStatements.id 0 brokenStatements.lex).tree.SpansNest
      brokenStatements
  := by
  have hsize : brokenStatements.content.length < UInt32.size := by decide
  exact ⟨hsize, parse_spans_nest {} brokenStatements 0 hsize,
    parse_spans_nest { maxErrors := 1 } brokenStatements 0 hsize⟩

end ThreeAddress
