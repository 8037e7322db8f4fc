import Mathlib.Data.List.Forall2
import Mathlib.Tactic.Common
import ThreeAddress.Syntax.Expr

/-!
# Reading nodes back from the arenas

A tree only ever grows: `Extends t t'` says that the arenas of `t'` begin with those of `t`.  A node
refers to nodes that were added before it, so `Reads t id e`, which says that `id` is read as `e` in
`t` and in every tree that extends `t`, is established once, when the node is added.
-/

namespace ThreeAddress

theorem slot?_push {α : Type} (array : Array α) (x : α) (id : Nat) :
  slot? (array.push x) id = if id = array.size + 1 then some x else slot? array id
  := by
  cases id with
  | zero => rfl
  | succ n => simp only [slot?, Array.getElem?_push, Nat.add_right_cancel_iff]

/-- What is in an array stays when the array grows. -/
theorem slot?_of_prefix {α : Type} {array array' : Array α} (h : array.toList <+: array'.toList)
    {id : Nat} {x : α} (hx : slot? array id = some x) :
  slot? array' id = some x
  := by
  cases id with
  | zero => cases hx
  | succ n =>
      rw [slot?, ← Array.getElem?_toList] at hx ⊢
      obtain ⟨rest, hrest⟩ := h
      obtain ⟨hn, -⟩ := List.getElem?_eq_some_iff.mp hx
      rw [← hrest, List.getElem?_append_left hn, hx]

theorem mem_of_slot? {α : Type} {array : Array α} {id : Nat} {x : α}
    (h : slot? array id = some x) :
  x ∈ array
  := by
  cases id with
  | zero => cases h
  | succ n => apply Array.mem_of_getElem? h

namespace Arena

variable {Form : Type} {kinds : Nat} {a a' a'' : Arena Form kinds} {unknown : Nat → Form}
variable {kind id : Nat} {span : Span} {form : Form}

/-- The arrays of `a'` begin with those of `a`. -/
structure Extends (a a' : Arena Form kinds) : Prop where
  entries : a.entries.toList <+: a'.entries.toList
  contents : ∀ kind, (a.contentsOf kind).toList <+: (a'.contentsOf kind).toList

/-- The contents of each kind after a node was added. -/
theorem contentsOf_add (a : Arena Form kinds) (kind : Nat) (span : Span) (form : Form)
    (kind' : Nat) :
  (a.add kind span form).1.contentsOf kind'
    = if kind = kind' ∧ kind < kinds then (a.contentsOf kind).push form else a.contentsOf kind'
  := by
  simp only [add, addEntry, contentsOf, Vector.getElem?_setIfInBounds]
  by_cases hkind : kind = kind'
  · subst hkind
    by_cases hlt : kind < kinds
    · simp [hlt]
    · simp [hlt]
  · simp [hkind]

theorem entries_add (a : Arena Form kinds) (kind : Nat) (span : Span) (form : Form) :
  (a.add kind span form).1.entries = a.entries.push ⟨kind, span, (a.contentsOf kind).size + 1⟩
  := by
  simp [add, addEntry]

theorem slot?_add (a : Arena Form kinds) (kind : Nat) (span : Span) (form : Form) (id : Nat) :
  slot? (a.add kind span form).1.entries id
    = if id = a.size + 1 then some ⟨kind, span, (a.contentsOf kind).size + 1⟩
      else slot? a.entries id
  := by
  rw [entries_add, slot?_push]
  rfl

@[simp]
theorem size_add (a : Arena Form kinds) (kind : Nat) (span : Span) (form : Form) :
  (a.add kind span form).1.size = a.size + 1
  := by
  simp [size, entries_add]

@[simp]
theorem id_add (a : Arena Form kinds) (kind : Nat) (span : Span) (form : Form) :
  (a.add kind span form).2 = a.size + 1
  := rfl

namespace Extends

theorem refl (a : Arena Form kinds) :
  a.Extends a
  := ⟨List.prefix_refl _, fun _ => List.prefix_refl _⟩

theorem trans (h : a.Extends a') (h' : a'.Extends a'') :
  a.Extends a''
  := ⟨h.entries.trans h'.entries, fun kind => (h.contents kind).trans (h'.contents kind)⟩

theorem add (a : Arena Form kinds) (kind : Nat) (span : Span) (form : Form) :
  a.Extends (a.add kind span form).1
  := by
  constructor
  · simp [entries_add]
  · intro kind'
    rw [contentsOf_add]
    split
    · next h => simp [h.1]
    · apply List.prefix_refl

theorem size_le (h : a.Extends a') :
  a.size ≤ a'.size
  := h.entries.length_le

theorem content?_eq_some (h : a.Extends a') (hcontent : a.content? kind id = some form) :
  a'.content? kind id = some form
  := by
  obtain ⟨e, he, hform⟩ := Option.bind_eq_some_iff.mp hcontent
  split at hform
  · next hkind =>
    rw [content?, slot?_of_prefix h.entries he, Option.bind_some, if_pos hkind]
    apply slot?_of_prefix (h.contents kind) hform
  · cases hform

theorem node?_eq_some (h : a.Extends a') {node : Node Form}
    (hnode : a.node? unknown id = some node) :
  a'.node? unknown id = some node
  := by
  obtain ⟨e, he, hnode⟩ := Option.bind_eq_some_iff.mp hnode
  rw [node?, slot?_of_prefix h.entries he, Option.bind_some]
  split at hnode
  · obtain ⟨form, hform, rfl⟩ := Option.map_eq_some_iff.mp hnode
    rw [if_pos (by assumption), h.content?_eq_some hform]
    rfl
  · rw [if_neg (by assumption), hnode]

end Extends

theorem le_size_of_node? {node : Node Form} (h : a.node? unknown id = some node) :
  id ≤ a.size
  := by
  obtain ⟨e, he, -⟩ := Option.bind_eq_some_iff.mp h
  cases id with
  | zero => apply Nat.zero_le
  | succ n =>
      obtain ⟨hn, -⟩ := Array.getElem?_eq_some_iff.mp he
      apply hn

theorem map_span_slot? {node : Node Form} (h : a.node? unknown id = some node) :
  (slot? a.entries id).map (·.span) = some node.span
  := by
  obtain ⟨e, he, hnode⟩ := Option.bind_eq_some_iff.mp h
  rw [he, Option.map_some]
  split at hnode
  · obtain ⟨form, -, rfl⟩ := Option.map_eq_some_iff.mp hnode
    rfl
  · cases hnode
    rfl

/-- A node that was added is read as it was given. -/
theorem node?_add (h : kind < kinds ∨ form = unknown kind) :
  (a.add kind span form).1.node? unknown (a.add kind span form).2 = some ⟨span, form⟩
  := by
  have hentry : slot? (a.add kind span form).1.entries (a.size + 1)
      = some ⟨kind, span, (a.contentsOf kind).size + 1⟩ := by
    rw [slot?_add, if_pos rfl]
  rw [id_add, node?, hentry, Option.bind_some]
  split
  · next hlt =>
    rw [content?, hentry, Option.bind_some, if_pos rfl, contentsOf_add, if_pos ⟨rfl, hlt⟩,
      slot?_push, if_pos rfl]
    rfl
  · next hge =>
    rw [h.resolve_left hge]

/-- Every node of a kind with contents has one, and every content is kept with those of its kind. -/
structure Filed (kindOf : Form → Nat) (a : Arena Form kinds) : Prop where
  filled : ∀ e ∈ a.entries, e.kind < kinds →
    ∃ form, slot? (a.contentsOf e.kind) e.payload = some form
  sorted : ∀ kind, ∀ form ∈ a.contentsOf kind, kindOf form = kind

namespace Filed

variable {kindOf : Form → Nat}

theorem empty :
  Filed kindOf ({} : Arena Form kinds)
  := by
  constructor
  · simp
  · intro kind form hform
    rw [contentsOf, Vector.getElem?_replicate] at hform
    split at hform
    · cases Array.not_mem_empty _ hform
    · cases Array.not_mem_empty _ hform

theorem add (h : a.Filed kindOf) (span : Span) (form : Form) :
  (a.add (kindOf form) span form).1.Filed kindOf
  := by
  have hext := Extends.add a (kindOf form) span form
  constructor
  · intro e he hlt
    rw [entries_add, Array.mem_push] at he
    obtain he | rfl := he
    · obtain ⟨form', hform'⟩ := h.filled e he hlt
      use form'
      apply slot?_of_prefix (hext.contents e.kind) hform'
    · use form
      rw [contentsOf_add, if_pos ⟨rfl, hlt⟩, slot?_push, if_pos rfl]
  · intro kind form' hform'
    rw [contentsOf_add] at hform'
    split at hform'
    · next hkind =>
      obtain hform' | rfl := Array.mem_push.mp hform'
      · rw [h.sorted _ form' hform', hkind.1]
      · apply hkind.1
    · apply h.sorted kind form' hform'

/-- The nodes that were there are read as before. -/
theorem node?_add_of_ne (h : a.Filed kindOf) (hid : id ≠ a.size + 1) :
  (a.add kind span form).1.node? unknown id = a.node? unknown id
  := by
  cases he : slot? a.entries id with
  | none => rw [node?, node?, slot?_add, if_neg hid, he, Option.bind_none, Option.bind_none]
  | some e =>
      by_cases hlt : e.kind < kinds
      · obtain ⟨form', hform'⟩ := h.filled e (mem_of_slot? he) hlt
        have hnode : a.node? unknown id = some ⟨e.span, form'⟩ := by
          rw [node?, he, Option.bind_some, if_pos hlt, content?, he, Option.bind_some, if_pos rfl,
            hform']
          rfl
        rw [hnode]
        apply (Extends.add a kind span form).node?_eq_some hnode
      · rw [node?, node?, slot?_add, if_neg hid, he, Option.bind_some, Option.bind_some,
          if_neg hlt, if_neg hlt]

/-- A node that was not there before is the added one. -/
theorem eq_of_node?_add (h : a.Filed kindOf) (hkind : kind < kinds ∨ form = unknown kind)
    {node : Node Form} (hnode : (a.add kind span form).1.node? unknown id = some node)
    (hnone : a.node? unknown id = none) :
  node = ⟨span, form⟩
  := by
  by_cases hid : id = a.size + 1
  · have hadded : (a.add kind span form).1.node? unknown id = some ⟨span, form⟩ := by
      rw [hid]
      apply node?_add hkind
    apply Option.some.inj (hnode.symm.trans hadded)
  · rw [h.node?_add_of_ne hid, hnone] at hnode
    cases hnode

/-- A node of a known kind can be asked for as one of its kind, and of no other. -/
theorem content?_eq (h : a.Filed kindOf) {node : Node Form} (hnode : a.node? unknown id = some node)
    (hknown : ∀ code, node.form ≠ unknown code) (kind : Nat) :
  a.content? kind id = if kindOf node.form = kind then some node.form else none
  := by
  obtain ⟨e, he, hnode⟩ := Option.bind_eq_some_iff.mp hnode
  split at hnode
  · obtain ⟨form, hform, rfl⟩ := Option.map_eq_some_iff.mp hnode
    have hentry := hform
    rw [content?, he, Option.bind_some, if_pos rfl] at hentry
    rw [h.sorted e.kind form (mem_of_slot? hentry)]
    split
    · next hkind => rw [← hkind, hform]
    · next hkind => rw [content?, he, Option.bind_some, if_neg hkind]
  · cases hnode
    cases hknown e.kind rfl

end Filed

end Arena

theorem ExprForm.kindNumber_lt (form : ExprForm) :
  form.kindNumber < 6 ∨ form = .unknown form.kindNumber
  := by
  cases form <;> simp [kindNumber]

theorem StmtForm.kindNumber_lt (form : StmtForm) :
  form.kindNumber < 8 ∨ form = .unknown form.kindNumber
  := by
  cases form <;> simp [kindNumber]

namespace Tree

/-- The arenas of `t'` begin with those of `t`. -/
def Extends (t t' : Tree) : Prop := t.exprs.Extends t'.exprs ∧ t.stmts.Extends t'.stmts

namespace Extends

variable {t t' t'' : Tree}

theorem refl (t : Tree) :
  t.Extends t
  := ⟨.refl _, .refl _⟩

theorem trans (h : t.Extends t') (h' : t'.Extends t'') :
  t.Extends t''
  := ⟨h.1.trans h'.1, h.2.trans h'.2⟩

theorem addExpr (t : Tree) (span : Span) (form : ExprForm) :
  t.Extends (t.addExpr span form).1
  := ⟨.add .., .refl _⟩

theorem addStmt (t : Tree) (span : Span) (form : StmtForm) :
  t.Extends (t.addStmt span form).1
  := ⟨.refl _, .add ..⟩

theorem size_exprs_le (h : t.Extends t') :
  t.exprs.size ≤ t'.exprs.size
  := h.1.size_le

theorem size_stmts_le (h : t.Extends t') :
  t.stmts.size ≤ t'.stmts.size
  := h.2.size_le

theorem expr?_eq_some (h : t.Extends t') {id : ExprId} {node : ExprNode}
    (hnode : t.expr? id = some node) :
  t'.expr? id = some node
  := h.1.node?_eq_some hnode

theorem stmt?_eq_some (h : t.Extends t') {id : StmtId} {node : StmtNode}
    (hnode : t.stmt? id = some node) :
  t'.stmt? id = some node
  := h.2.node?_eq_some hnode

end Extends

theorem exprSpan_eq_of_expr? {t : Tree} {id : ExprId} {node : ExprNode}
    (h : t.expr? id = some node) :
  t.exprSpan id = node.span
  := by
  rw [exprSpan, Arena.map_span_slot? h]
  rfl

theorem expr?_addExpr (t : Tree) (span : Span) (form : ExprForm) :
  (t.addExpr span form).1.expr? (t.addExpr span form).2 = some ⟨span, form⟩
  := Arena.node?_add form.kindNumber_lt

theorem stmt?_addStmt (t : Tree) (span : Span) (form : StmtForm) :
  (t.addStmt span form).1.stmt? (t.addStmt span form).2 = some ⟨span, form⟩
  := Arena.node?_add form.kindNumber_lt

/-! ### Expressions -/

/-- The expression of a node, whose parts are read at most `depth` nodes deep. -/
def formTo (t : Tree) (depth : Nat) (span : Span) : ExprForm → Expr
  | .ident name => .ident span name
  | .literal kind value => .literal span kind value
  | .call name nameSpan args => .call span name nameSpan (args.map (t.exprTo depth))
  | .binary op left right => .binary span op (t.exprTo depth left) (t.exprTo depth right)
  | .unary op operand => .unary span op (t.exprTo depth operand)
  | .group inner => .group span (t.exprTo depth inner)
  | .unknown code => .unknown span code

theorem exprTo_succ (t : Tree) (depth : Nat) (id : ExprId) :
  t.exprTo (depth + 1) id
    = match t.expr? id with
      | none => .missing id
      | some node => t.formTo depth node.span node.form
  := by
  rw [exprTo]
  cases t.expr? id with
  | none => rfl
  | some node =>
      obtain ⟨span, form⟩ := node
      cases form <;> rfl

/-- The identifier `id` is read as `e` in `t` and in every tree that extends `t`. -/
def Reads (t : Tree) (id : ExprId) (e : Expr) : Prop :=
  (∃ node, t.expr? id = some node)
    ∧ ∀ t', t.Extends t' → ∀ depth, id ≤ depth → t'.exprTo depth id = e

namespace Reads

variable {t t' : Tree} {id : ExprId} {e : Expr}

theorem mono (h : t.Reads id e) (hext : t.Extends t') :
  t'.Reads id e
  := by
  obtain ⟨node, hnode⟩ := h.1
  use ⟨node, hext.expr?_eq_some hnode⟩
  intro t'' hext'
  apply h.2 t'' (hext.trans hext')

theorem ne_zero (h : t.Reads id e) :
  id ≠ 0
  := by
  rintro rfl
  obtain ⟨node, hnode⟩ := h.1
  cases hnode

theorem exprTo_eq (h : t.Reads id e) (hext : t.Extends t') {depth : Nat}
    (hdepth : t.exprs.size ≤ depth) :
  t'.exprTo depth id = e
  := by
  obtain ⟨node, hnode⟩ := h.1
  apply h.2 t' hext depth (Nat.le_trans (Arena.le_size_of_node? hnode) hdepth)

theorem expr_eq (h : t.Reads id e) (hext : t.Extends t') :
  t'.expr id = e
  := by
  apply h.exprTo_eq hext
  have := hext.size_exprs_le
  omega

theorem exprSpan_eq (h : t.Reads id e) :
  t.exprSpan id = e.span
  := by
  have hread := h.2 t (.refl t) (id + 1) (Nat.le_succ id)
  obtain ⟨⟨span, form⟩, hnode⟩ := h.1
  rw [exprTo_succ, hnode] at hread
  rw [exprSpan_eq_of_expr? hnode, ← hread]
  cases form <;> rfl

/-- A node is read as a name exactly if it is one. -/
theorem ident_iff (h : t.Reads id e) {span : Span} {name : Text} :
  t.expr? id = some ⟨span, .ident name⟩ ↔ e = .ident span name
  := by
  have hread := h.2 t (.refl t) (id + 1) (Nat.le_succ id)
  rw [exprTo_succ] at hread
  split at hread
  · next hnode =>
    rw [hnode, ← hread]
    simp
  · next node hnode =>
    rw [hnode, ← hread]
    obtain ⟨span', form⟩ := node
    cases form <;> simp [formTo]

theorem map_exprTo_eq {ids : List ExprId} {es : List Expr} (h : List.Forall₂ t.Reads ids es)
    (hext : t.Extends t') {depth : Nat} (hdepth : t.exprs.size ≤ depth) :
  ids.map (t'.exprTo depth) = es
  := by
  induction h with
  | nil => rfl
  | cons hid _ ih => rw [List.map_cons, hid.exprTo_eq hext hdepth, ih]

end Reads

/-- A node is read as the expression of its form. -/
theorem reads_addExpr {t : Tree} {span : Span} {form : ExprForm} {e : Expr}
    (h : ∀ t', t.Extends t' → ∀ depth, t.exprs.size ≤ depth → t'.formTo depth span form = e) :
  (t.addExpr span form).1.Reads (t.addExpr span form).2 e
  := by
  use ⟨_, expr?_addExpr t span form⟩
  intro t' hext depth hdepth
  have hnode := hext.expr?_eq_some (expr?_addExpr t span form)
  obtain ⟨depth, rfl⟩ := Nat.exists_eq_add_of_le' (Nat.le_trans (Nat.le_add_left 1 _) hdepth)
  rw [exprTo_succ, hnode]
  apply h t' ((Extends.addExpr t span form).trans hext)
  apply Nat.le_of_succ_le_succ hdepth

/-! ### Statements -/

/-- The statement of a node, whose parts are read at most `depth` statements deep. -/
def stmtFormTo (t : Tree) (depth : Nat) (span : Span) : StmtForm → Stmt
  | .letVar name nameSpan value => .letVar span name nameSpan (t.expr value)
  | .assign name nameSpan value => .assign span name nameSpan (t.expr value)
  | .ifElse cond thenBody elseBody hasElse =>
    .ifElse span (t.expr cond) (thenBody.map (t.stmtTo depth)) (elseBody.map (t.stmtTo depth))
      hasElse
  | .while cond body => .while span (t.expr cond) (body.map (t.stmtTo depth))
  | .function name nameSpan params body =>
    .function span name nameSpan params (body.map (t.stmtTo depth))
  | .ret value => .ret span (if value = 0 then none else some (t.expr value))
  | .print value => .print span (t.expr value)
  | .expr value => .expr span (t.expr value)
  | .unknown code => .unknown span code

theorem stmtTo_succ (t : Tree) (depth : Nat) (id : StmtId) :
  t.stmtTo (depth + 1) id
    = match t.stmt? id with
      | none => .missing id
      | some node => t.stmtFormTo depth node.span node.form
  := by
  rw [stmtTo]
  cases t.stmt? id with
  | none => rfl
  | some node =>
      obtain ⟨span, form⟩ := node
      cases form <;> rfl

/-- The identifier `id` is read as the statement `s` in `t` and in every tree that extends `t`. -/
def ReadsStmt (t : Tree) (id : StmtId) (s : Stmt) : Prop :=
  id ≤ t.stmts.size ∧ ∀ t', t.Extends t' → ∀ depth, id ≤ depth → t'.stmtTo depth id = s

namespace ReadsStmt

variable {t t' : Tree} {id : StmtId} {s : Stmt}

theorem mono (h : t.ReadsStmt id s) (hext : t.Extends t') :
  t'.ReadsStmt id s
  := by
  use Nat.le_trans h.1 hext.size_stmts_le
  intro t'' hext'
  apply h.2 t'' (hext.trans hext')

theorem map_stmtTo_eq {ids : List StmtId} {ss : List Stmt} (h : List.Forall₂ t.ReadsStmt ids ss)
    (hext : t.Extends t') {depth : Nat} (hdepth : t.stmts.size ≤ depth) :
  ids.map (t'.stmtTo depth) = ss
  := by
  induction h with
  | nil => rfl
  | cons hid _ ih => rw [List.map_cons, hid.2 t' hext depth (Nat.le_trans hid.1 hdepth), ih]

end ReadsStmt

/-- A node is read as the statement of its form. -/
theorem readsStmt_addStmt {t : Tree} {span : Span} {form : StmtForm} {s : Stmt}
    (h : ∀ t', t.Extends t' → ∀ depth, t.stmts.size ≤ depth → t'.stmtFormTo depth span form = s) :
  (t.addStmt span form).1.ReadsStmt (t.addStmt span form).2 s
  := by
  have hsize : (t.addStmt span form).1.stmts.size = t.stmts.size + 1 := Arena.size_add ..
  use Nat.le_of_eq hsize.symm
  intro t' hext depth hdepth
  have hnode := hext.stmt?_eq_some (stmt?_addStmt t span form)
  obtain ⟨depth, rfl⟩ := Nat.exists_eq_add_of_le' (Nat.le_trans (Nat.le_add_left 1 _) hdepth)
  rw [stmtTo_succ, hnode]
  apply h t' ((Extends.addStmt t span form).trans hext)
  apply Nat.le_of_succ_le_succ hdepth

end Tree

end ThreeAddress
