import Mathlib.Data.List.Nodup
import ThreeAddress.Proofs.Syntax.Building

/-!
# The parser builds trees

`Forest t roots` says that the nodes of `t` form trees and that `roots`, to which no node refers,
are the nodes that a later one may refer to.  A node that takes some of the roots as its parts
becomes a root itself.  Since everything that is made is a root when it is made, all references lead
to nodes that were made before, and no two lead to the same node.  What a failed statement leaves
behind only ceases to be a root.
-/

namespace ThreeAddress

namespace Tree

/-- There is such a node, and it is of a kind that the language has. -/
def Resolves (t : Tree) : NodeRef → Prop
  | .program => True
  | .stmt id => ∃ node, t.stmt? id = some node ∧ node.form.IsKnown
  | .expr id => ∃ node, t.expr? id = some node ∧ node.form.IsKnown

/-- Every content is kept with those of its kind, and every node of a known kind has one. -/
structure Filed (t : Tree) : Prop where
  exprs : t.exprs.Filed ExprForm.kindNumber
  stmts : t.stmts.Filed StmtForm.kindNumber

/-- The nodes form trees, and no node refers to one of the roots. -/
structure Forest (t : Tree) (roots : List NodeRef) : Prop where
  filed : t.Filed
  resolves : ∀ p, ∀ c ∈ t.parts p, t.Resolves c
  before : ∀ p, ∀ c ∈ t.parts p, c.Before p
  nodup : ∀ p, (t.parts p).Nodup
  unshared : ∀ p q c, c ∈ t.parts p → c ∈ t.parts q → p = q
  roots_resolve : ∀ r ∈ roots, t.Resolves r
  roots_nodup : roots.Nodup
  roots_free : ∀ r ∈ roots, ∀ p, r ∉ t.parts p

variable {t t' : Tree} {roots refs : List NodeRef} {n : NodeRef}

theorem Resolves.le_size_exprs {id : ExprId} (h : t.Resolves (.expr id)) :
  id ≤ t.exprs.size
  := by
  obtain ⟨node, hnode, -⟩ := h
  apply Arena.le_size_of_node? hnode

theorem Resolves.le_size_stmts {id : StmtId} (h : t.Resolves (.stmt id)) :
  id ≤ t.stmts.size
  := by
  obtain ⟨node, hnode, -⟩ := h
  apply Arena.le_size_of_node? hnode

theorem Resolves.mono (h : t.Resolves n) (hext : t.Extends t') :
  t'.Resolves n
  := by
  cases n with
  | program => trivial
  | stmt id =>
      obtain ⟨node, hnode, hknown⟩ := h
      exact ⟨node, hext.stmt?_eq_some hnode, hknown⟩
  | expr id =>
      obtain ⟨node, hnode, hknown⟩ := h
      exact ⟨node, hext.expr?_eq_some hnode, hknown⟩

theorem program_notMem_parts (t : Tree) (p : NodeRef) :
  .program ∉ t.parts p
  := by
  cases p with
  | program => simp [parts]
  | stmt id => cases hnode : t.stmt? id <;> simp [parts, hnode, StmtForm.refs]
  | expr id => cases hnode : t.expr? id <;> simp [parts, hnode, ExprForm.refs]

/-! ### The parts of the nodes after one was added -/

theorem parts_addExpr (hfiled : t.Filed) (span : Span) (form : ExprForm) :
  (t.addExpr span form).1.parts = Function.update t.parts (.expr (t.exprs.size + 1)) form.refs
  := by
  funext p
  cases p with
  | program | stmt => rfl
  | expr id =>
      by_cases hid : id = t.exprs.size + 1
      · have hnode := expr?_addExpr t span form
        change (t.addExpr span form).1.expr? (t.exprs.size + 1) = _ at hnode
        rw [hid, Function.update_self, parts, hnode]
        rfl
      · have hnode : (t.addExpr span form).1.expr? id = t.expr? id :=
          hfiled.exprs.node?_add_of_ne hid
        rw [Function.update_of_ne (by simpa using hid), parts, parts, hnode]

theorem parts_addStmt (hfiled : t.Filed) (span : Span) (form : StmtForm) :
  (t.addStmt span form).1.parts = Function.update t.parts (.stmt (t.stmts.size + 1)) form.refs
  := by
  funext p
  cases p with
  | program | expr => rfl
  | stmt id =>
      by_cases hid : id = t.stmts.size + 1
      · have hnode := stmt?_addStmt t span form
        change (t.addStmt span form).1.stmt? (t.stmts.size + 1) = _ at hnode
        rw [hid, Function.update_self, parts, hnode]
        rfl
      · have hnode : (t.addStmt span form).1.stmt? id = t.stmt? id :=
          hfiled.stmts.node?_add_of_ne hid
        rw [Function.update_of_ne (by simpa using hid), parts, parts, hnode]

namespace Forest

theorem empty : Forest {} []
  := by
  have hparts : ∀ p, ({} : Tree).parts p = [] := by
    rintro (_ | _ | _)
    · rfl
    · rename_i id; cases id <;> rfl
    · rename_i id; cases id <;> rfl
  constructor
  case filed => exact ⟨.empty, .empty⟩
  all_goals simp [hparts]

/-- Fewer of the nodes may be referred to. -/
theorem forget (h : Forest t (roots ++ refs)) :
  Forest t roots
  := by
  have hsub : roots.Sublist (roots ++ refs) := List.sublist_append_left _ _
  exact { h with
    roots_resolve := fun r hr => h.roots_resolve r (hsub.subset hr)
    roots_nodup := h.roots_nodup.sublist hsub
    roots_free := fun r hr => h.roots_free r (hsub.subset hr) }

/-- A node that becomes the parent of the last roots. -/
theorem adopt (h : Forest t (roots ++ refs)) (hfiled : t'.Filed) (hext : t.Extends t')
    (hparts : t'.parts = Function.update t.parts n refs) (hbefore : ∀ c ∈ refs, c.Before n) :
  Forest t' roots
  := by
  have hsame : ∀ p, p ≠ n → t'.parts p = t.parts p := by
    intro p hp
    rw [hparts, Function.update_of_ne hp]
  have hown : t'.parts n = refs := by rw [hparts, Function.update_self]
  have hfree : ∀ c ∈ refs, ∀ p, c ∉ t.parts p := fun c hc =>
    h.roots_free c (List.mem_append_right _ hc)
  obtain ⟨hroots, hrefs, hdisjoint⟩ := List.nodup_append'.mp h.roots_nodup
  constructor
  case filed => apply hfiled
  case resolves =>
    intro p c hc
    apply Resolves.mono _ hext
    by_cases hp : p = n
    · rw [hp, hown] at hc
      apply h.roots_resolve c (List.mem_append_right _ hc)
    · rw [hsame p hp] at hc
      apply h.resolves p c hc
  case before =>
    intro p c hc
    by_cases hp : p = n
    · rw [hp, hown] at hc
      rw [hp]
      apply hbefore c hc
    · rw [hsame p hp] at hc
      apply h.before p c hc
  case nodup =>
    intro p
    by_cases hp : p = n
    · rw [hp, hown]
      apply hrefs
    · rw [hsame p hp]
      apply h.nodup
  case unshared =>
    intro p q c hcp hcq
    by_cases hp : p = n <;> by_cases hq : q = n
    · rw [hp, hq]
    · rw [hp, hown] at hcp
      rw [hsame q hq] at hcq
      cases hfree c hcp q hcq
    · rw [hsame p hp] at hcp
      rw [hq, hown] at hcq
      cases hfree c hcq p hcp
    · rw [hsame p hp] at hcp
      rw [hsame q hq] at hcq
      apply h.unshared p q c hcp hcq
  case roots_resolve =>
    intro r hr
    apply (h.roots_resolve r (List.mem_append_left _ hr)).mono hext
  case roots_nodup => apply hroots
  case roots_free =>
    intro r hr p
    by_cases hp : p = n
    · rw [hp, hown]
      apply hdisjoint hr
    · rw [hsame p hp]
      apply h.roots_free r (List.mem_append_left _ hr)

/-- A new node becomes a root. -/
theorem root (h : Forest t roots) (hn : t.Resolves n) (hroots : n ∉ roots)
    (hfree : ∀ p, n ∉ t.parts p) :
  Forest t (roots ++ [n])
  := { h with
    roots_resolve := by
      intro r hr
      obtain hr | rfl := by simpa using hr
      · apply h.roots_resolve r hr
      · apply hn
    roots_nodup := List.nodup_append'.mpr ⟨h.roots_nodup, List.nodup_singleton n, by simpa⟩
    roots_free := by
      intro r hr
      obtain hr | rfl := by simpa using hr
      · apply h.roots_free r hr
      · apply hfree }

/-- A node that was not there before takes the last roots as its parts and becomes a root. -/
theorem add (h : Forest t (roots ++ refs)) (hfiled : t'.Filed) (hext : t.Extends t')
    (hnew : ¬ t.Resolves n) (hn : t'.Resolves n) (hparts : t'.parts = Function.update t.parts n refs)
    (hbefore : ∀ c ∈ refs, t.Resolves c → c.Before n) :
  Forest t' (roots ++ [n])
  := by
  have hbefore : ∀ c ∈ refs, c.Before n := fun c hc =>
    hbefore c hc (h.roots_resolve c (List.mem_append_right _ hc))
  have hadopt := h.adopt hfiled hext hparts hbefore
  apply hadopt.root hn
  · intro hmem
    apply hnew (h.roots_resolve n (List.mem_append_left _ hmem))
  · intro p hmem
    by_cases hp : p = n
    · apply NodeRef.Before.irrefl n
      rw [hparts, hp, Function.update_self] at hmem
      apply hbefore n hmem
    · rw [hparts, Function.update_of_ne hp] at hmem
      apply hnew (h.resolves p n hmem)

theorem addExpr {form : ExprForm} (h : Forest t (roots ++ form.refs)) (hknown : form.IsKnown)
    (span : Span) :
  Forest (t.addExpr span form).1 (roots ++ [.expr (t.addExpr span form).2])
  := by
  have hnode : (t.addExpr span form).1.Resolves (.expr (t.addExpr span form).2) :=
    ⟨_, expr?_addExpr t span form, hknown⟩
  have hfiled : (t.addExpr span form).1.Filed := ⟨h.filed.exprs.add span form, h.filed.stmts⟩
  apply h.add hfiled (.addExpr t span form) _ hnode (parts_addExpr h.filed span form)
  · intro c hc hresolves
    obtain ⟨id, -, rfl⟩ := List.mem_map.mp hc
    apply Nat.lt_succ_of_le hresolves.le_size_exprs
  · intro hresolves
    apply Nat.not_succ_le_self _ hresolves.le_size_exprs

theorem addStmt {form : StmtForm} (h : Forest t (roots ++ form.refs)) (hknown : form.IsKnown)
    (span : Span) :
  Forest (t.addStmt span form).1 (roots ++ [.stmt (t.addStmt span form).2])
  := by
  have hnode : (t.addStmt span form).1.Resolves (.stmt (t.addStmt span form).2) :=
    ⟨_, stmt?_addStmt t span form, hknown⟩
  have hfiled : (t.addStmt span form).1.Filed := ⟨h.filed.exprs, h.filed.stmts.add span form⟩
  apply h.add hfiled (.addStmt t span form) _ hnode (parts_addStmt h.filed span form)
  · intro c hc hresolves
    obtain hc | hc := List.mem_append.mp hc
    · obtain ⟨id, -, rfl⟩ := List.mem_map.mp hc
      trivial
    · obtain ⟨id, -, rfl⟩ := List.mem_map.mp hc
      apply Nat.lt_succ_of_le hresolves.le_size_stmts
  · intro hresolves
    apply Nat.not_succ_le_self _ hresolves.le_size_stmts

/-- The last roots become the statements of the program. -/
theorem setProgram {ids : List StmtId} (h : Forest t (roots ++ ids.map .stmt)) (span : Span) :
  Forest { t with span, program := ids } roots
  := by
  have hfiled : Tree.Filed { t with span, program := ids } := ⟨h.filed.exprs, h.filed.stmts⟩
  have hext : t.Extends { t with span, program := ids } := ⟨.refl _, .refl _⟩
  have hparts : Tree.parts { t with span, program := ids }
      = Function.update t.parts .program (ids.map .stmt) := by
    funext p
    cases p with
    | program => rw [Function.update_self]; rfl
    | stmt | expr => rw [Function.update_of_ne (by simp)]; rfl
  apply h.adopt hfiled hext hparts
  intro c hc
  obtain ⟨id, -, rfl⟩ := List.mem_map.mp hc
  trivial

theorem resolves_of_reachable (h : Forest t roots) (hn : t.Reachable n) :
  t.Resolves n
  := by
  cases hn with
  | program => trivial
  | part _ hc => apply h.resolves _ _ hc

theorem isTree (h : Forest t roots) :
  t.IsTree
  := by
  constructor
  case expr_resolves =>
    intro id hid
    obtain ⟨node, hnode, hknown⟩ := h.resolves_of_reachable hid
    exact ⟨node, hnode, hknown, h.filed.exprs.content?_eq hnode hknown⟩
  case stmt_resolves =>
    intro id hid
    obtain ⟨node, hnode, hknown⟩ := h.resolves_of_reachable hid
    exact ⟨node, hnode, hknown, h.filed.stmts.content?_eq hnode hknown⟩
  case expr_lt => exact fun p c _ hc => h.before _ _ hc
  case stmt_lt => exact fun p c _ hc => h.before _ _ hc
  case parts_nodup => exact fun p _ => h.nodup p
  case parent_unique => exact fun p q c _ _ => h.unshared p q c
  case wellFounded =>
    apply Subrelation.wf _ NodeRef.wellFounded_before
    exact fun ⟨_, hc⟩ => h.before _ _ hc

end Forest

end Tree

/-- Whatever is made is added to the roots. -/
theorem Builds.forest {o : ParseOptions} {s s' : ParseState} {made : List NodeRef}
    {spans : List Span} (hm : Builds o s made spans s') {roots : List NodeRef}
    (h : s.tree.Forest roots) :
  s'.tree.Forest (roots ++ made)
  := by
  induction hm generalizing roots with
  | nothing | take => rwa [List.append_nil]
  | @report s p opened =>
      obtain ⟨errors, reports, heq⟩ := ParseState.report_eq o s p opened
      rwa [heq, List.append_nil]
  | append _ _ ih ih' =>
      rw [← List.append_assoc]
      apply ih' (ih h)
  | forget _ ih =>
      rw [List.append_nil]
      apply (ih h).forget
  | expr _ hknown _ _ _ ih => apply (ih h).addExpr hknown
  | stmt _ _ hknown _ _ ih => apply (ih h).addStmt hknown

/-- Whatever the tokens, the limit on errors and the moment of a cancellation are, the nodes that
are reached from the program form a tree. -/
theorem parse_builds_tree (o : ParseOptions) (file : FileId) (errors : Nat) (lexed : List Lexed) :
  (parse o file errors lexed).tree.IsTree
  := by
  rw [parse, parseTokens]
  obtain ⟨spans, hbuilds⟩ := Parser.builds_stmtList (o := o) .eof _
  apply @Tree.Forest.isTree _ []
  apply Tree.Forest.setProgram
  apply hbuilds.forest .empty

end ThreeAddress
