import ThreeAddress.Proofs.Syntax.Derivation
import ThreeAddress.Proofs.Syntax.Nodes

/-!
# What every parser builds

`Builds o s made spans s'` says that on the way from `s` to `s'` the nodes `made` are made and still
to be referred to, out of tokens and nodes that stand at `spans`, in this order.  A node is made out
of everything between its first token and its last one, and the nodes that it refers to are those
that were made on this way.  Every parser builds something, whether it succeeds or not: nodes that
were made before a failure are forgotten.
-/

namespace ThreeAddress

open Outcome

/-- On the way from `s` to `s'` the nodes `made` are made, out of what stands at `spans`. -/
inductive Builds (o : ParseOptions) : ParseState → List NodeRef → List Span → ParseState → Prop
  | nothing {s : ParseState} : Builds o s [] [] s
  | take {s : ParseState} {tok : Token} {rest : List Token} (hs : s.rest = tok :: rest) :
    Builds o s [] [tok.span] (s.advance tok rest)
  | report {s : ParseState} (p : SyntaxProblem) (opened : Option Span) :
    Builds o s [] [] (s.report o p opened)
  | append {s s' s₂ : ParseState} {made made' : List NodeRef} {spans spans' : List Span}
    (h : Builds o s made spans s') (h' : Builds o s' made' spans' s₂) :
    Builds o s (made ++ made') (spans ++ spans') s₂
  | forget {s s' : ParseState} {made : List NodeRef} {spans : List Span}
    (h : Builds o s made spans s') :
    Builds o s [] spans s'
  | expr {s s' : ParseState} {form : ExprForm} {spans : List Span} {first last : Span}
    (h : Builds o s form.refs spans s') (hknown : form.IsKnown) (hnames : form.names ⊆ spans)
    (hfirst : spans.head? = some first) (hlast : spans.getLast? = some last) :
    Builds o s [.expr (s'.addExpr (first.cover last) form).1] [first.cover last]
      (s'.addExpr (first.cover last) form).2
  | stmt {s s' : ParseState} {tok : Token} {rest : List Token} {form : StmtForm}
    {spans : List Span} (hs : s.rest = tok :: rest) (h : Builds o s form.refs spans s')
    (hknown : form.IsKnown) (hnames : form.names ⊆ spans) (hspans : spans ≠ []) :
    Builds o s [.stmt (s'.addStmt (tok.span.cover s'.last) form).1] [tok.span.cover s'.last]
      (s'.addStmt (tok.span.cover s'.last) form).2

/-- A report changes nothing but the findings. -/
theorem ParseState.report_eq (o : ParseOptions) (s : ParseState) (p : SyntaxProblem)
    (opened : Option Span) :
  ∃ errors reports, s.report o p opened = { s with errors, reports }
  := by
  unfold ParseState.report
  dsimp only
  split
  · exact ⟨_, _, rfl⟩
  · split
    · exact ⟨_, _, rfl⟩
    · exact ⟨_, _, rfl⟩

theorem Span.cover_self (s : Span) :
  s.cover s = s
  := by
  rw [cover, if_pos rfl, show min s.start s.start = s.start from ite_self _,
    show max s.stop s.stop = s.stop from ite_self _]

namespace Builds

variable {o : ParseOptions} {s s' : ParseState} {made : List NodeRef} {spans : List Span}

/-- Nodes are added and none is changed. -/
theorem grows (h : Builds o s made spans s') :
  s.tree.Extends s'.tree
  := by
  induction h with
  | nothing | take => apply Tree.Extends.refl
  | @report s p opened =>
      obtain ⟨errors, reports, heq⟩ := ParseState.report_eq o s p opened
      rw [heq]
      apply Tree.Extends.refl
  | append _ _ ih ih' => apply ih.trans ih'
  | forget _ ih => apply ih
  | expr _ _ _ _ _ ih => apply ih.trans (.addExpr ..)
  | stmt _ _ _ _ _ ih => apply ih.trans (.addStmt ..)

/-- Tokens are taken, at least one for each piece, and the last one is remembered. -/
theorem takes (h : Builds o s made spans s') :
  ∃ ts, s.rest = ts ++ s'.rest ∧ spans.length ≤ ts.length ∧ (spans = [] → ts = [])
    ∧ s'.last = (ts.getLast?.map (·.span)).getD s.last
  := by
  induction h with
  | nothing => exact ⟨[], rfl, Nat.le_refl _, fun _ => rfl, rfl⟩
  | @take s tok rest hs => exact ⟨[tok], hs, Nat.le_refl _, nofun, rfl⟩
  | @report s p opened =>
      obtain ⟨errors, reports, heq⟩ := ParseState.report_eq o s p opened
      rw [heq]
      exact ⟨[], rfl, Nat.le_refl _, fun _ => rfl, rfl⟩
  | append _ _ ih ih' =>
      obtain ⟨ts, hrest, hlength, hnil, hlast⟩ := ih
      obtain ⟨ts', hrest', hlength', hnil', hlast'⟩ := ih'
      refine ⟨ts ++ ts', ?_, ?_, ?_, ?_⟩
      · rw [hrest, hrest', List.append_assoc]
      · rw [List.length_append, List.length_append]
        omega
      · intro h
        obtain ⟨h, h'⟩ := List.append_eq_nil_iff.mp h
        rw [hnil h, hnil' h', List.nil_append]
      · rw [hlast', hlast, List.getLast?_append]
        cases ts'.getLast? <;> rfl
  | forget _ ih => apply ih
  | expr _ _ _ hfirst _ ih =>
      obtain ⟨ts, hrest, hlength, -, hlast⟩ := ih
      have hpos := List.length_pos_of_mem (List.mem_of_mem_head? hfirst)
      exact ⟨ts, hrest, Nat.le_trans hpos hlength, nofun, hlast⟩
  | stmt _ _ _ _ hspans ih =>
      obtain ⟨ts, hrest, hlength, -, hlast⟩ := ih
      have hpos := List.length_pos_iff.mpr hspans
      exact ⟨ts, hrest, Nat.le_trans hpos hlength, nofun, hlast⟩

theorem left_le (h : Builds o s made spans s') :
  s'.left + spans.length ≤ s.left
  := by
  obtain ⟨ts, hrest, hlength, -⟩ := h.takes
  rw [ParseState.left, ParseState.left, hrest, List.length_append]
  omega

theorem next? {tok : Token} {s' : { s' : ParseState // s'.left < s.left }}
    (h : s.next? = some (tok, s')) :
  Builds o s [] [tok.span] s'.val
  := by
  cases hs : s.rest with
  | nil =>
      rw [ParseState.next?_nil hs] at h
      cases h
  | cons tok rest =>
      rw [ParseState.next?_cons hs] at h
      cases h
      apply take hs

end Builds

/-! ### Outcomes -/

/-- The parser that starts in `s` makes what `P` says if it succeeds, and leaves nothing to refer to
if it fails. -/
inductive Produces {α : Type} (o : ParseOptions) (s : ParseState)
    (P : α → List NodeRef → List Span → ParseState → Prop) : Outcome α → Prop
  | success {a : α} {made : List NodeRef} {spans : List Span} {s' : ParseState}
    (h : Builds o s made spans s') (hP : P a made spans s') : Produces o s P (some a, s')
  | failure {spans : List Span} {s' : ParseState} (h : Builds o s [] spans s') :
    Produces o s P (none, s')

namespace Produces

variable {α β : Type} {o : ParseOptions} {s s' : ParseState}
variable {P : α → List NodeRef → List Span → ParseState → Prop}
variable {Q : β → List NodeRef → List Span → ParseState → Prop}
variable {r : Outcome α} {f : α → ParseState → Outcome β}
variable {made : List NodeRef} {spans : List Span}

/-- What is made by a parser and by what follows its success, after something was made before. -/
theorem andThen (h : Builds o s made spans s') (hr : Produces o s' P r)
    (hf : ∀ a made' spans' s₂, Builds o s' made' spans' s₂ →
      Builds o s (made ++ made') (spans ++ spans') s₂ → P a made' spans' s₂ →
      Produces o s Q (f a s₂)) :
  Produces o s Q (r.andThen f)
  := by
  cases hr with
  | success h' hP => apply hf _ _ _ _ h' (h.append h') hP
  | failure h' => apply failure (h.append h').forget

/-- What is made by a parser and by what follows its success. -/
theorem bind (hr : Produces o s P r)
    (hf : ∀ a made spans s', Builds o s made spans s' → P a made spans s' →
      Produces o s Q (f a s')) :
  Produces o s Q (r.andThen f)
  := andThen .nothing hr fun a made spans s' h _ hP => hf a made spans s' h hP

end Produces

namespace Parser

variable {o : ParseOptions} {s s' : ParseState} {tok : Token} {rest : List Token}
variable {made : List NodeRef} {spans : List Span}

/-- One token, and no node. -/
def TokenTaken (tok : Token) (made : List NodeRef) (spans : List Span) (_ : ParseState) : Prop :=
  made = [] ∧ spans = [tok.span]

/-- One expression, made of one piece. -/
def ExprMade (id : ExprId) (made : List NodeRef) (spans : List Span) (s' : ParseState) : Prop :=
  made = [.expr id] ∧ ∃ span form, spans = [span] ∧ s'.tree.expr? id = some ⟨span, form⟩

/-- Several expressions. -/
def ExprsMade (ids : List ExprId) (made : List NodeRef) (_ : List Span) (_ : ParseState) : Prop :=
  made = ids.map .expr

theorem expect_produces (k : TokenKind) (p : SyntaxProblem) (opened : Option Span) :
  Produces o s TokenTaken (expect o s k p opened).out
  := by
  rw [expect_out]
  obtain ⟨htook, -⟩ | ⟨tok, rest, hs, -, htook⟩ := took?_cases s k
  · rw [htook]
    apply Produces.failure (.report p opened)
  · rw [htook]
    exact .success (.take hs) ⟨rfl, rfl⟩

/-! ### Expressions -/

theorem produces_leaf {form : ExprForm} {first last : Span} (h : Builds o s form.refs spans s')
    (hknown : form.IsKnown) (hnames : form.names ⊆ spans) (hfirst : spans.head? = some first)
    (hlast : spans.getLast? = some last) :
  Produces o s ExprMade (leaf s' (first.cover last) form)
  := .success (.expr h hknown hnames hfirst hlast) ⟨rfl, _, form, rfl, Tree.expr?_addExpr ..⟩

/-- Parsers of expressions make expressions with fewer than the given number of tokens left. -/
def ExprsBelow (o : ParseOptions) (left : Nat) : Prop :=
  ∀ s : ParseState, s.left < left →
    (∀ least, Produces o s ExprMade (binary o least s).out)
      ∧ Produces o s ExprMade (unary o s).out
      ∧ Produces o s ExprsMade (argList o s).out

theorem climb_produces {left least : Nat} {id : ExprId} {span : Span} {form : ExprForm}
    (ih : ExprsBelow o left) (h : Builds o s [.expr id] [span] s')
    (hnode : s'.tree.expr? id = some ⟨span, form⟩) (hleft : s'.left ≤ left) :
  Produces o s ExprMade (climb o least id s').out
  := by
  induction hk : s'.left using Nat.strongRecOn generalizing id span form s' with
  | ind k ihk =>
      obtain hstop | ⟨tok, rest, op, hs', hop, hle⟩ := climb_cases least s'
      · rw [climb_stop hstop]
        exact .success h ⟨rfl, span, form, rfl, hnode⟩
      · rw [climb_go hs' hop hle]
        have hlt := ParseState.left_advance_lt hs'
        apply Produces.andThen (h.append (.take hs')) ((ih _ (by omega)).1 _)
        rintro right _ _ s₂ h₂ h ⟨rfl, span', form', rfl, hnode'⟩
        have hnode₂ := h₂.grows.expr?_eq_some hnode
        have hmade : Builds o s [.expr (addBinary op id right s₂).1] [span.cover span']
            (addBinary op id right s₂).2 := by
          rw [addBinary, Tree.exprSpan_eq_of_expr? hnode₂, Tree.exprSpan_eq_of_expr? hnode']
          exact .expr h nofun nofun rfl rfl
        have hle₂ := h₂.left_le
        have hleft₂ : (addBinary op id right s₂).2.left = s₂.left := rfl
        have hadded : (addBinary op id right s₂).2.tree.expr? (addBinary op id right s₂).1
            = some ⟨span.cover span', .binary op id right⟩ := by
          rw [addBinary, Tree.exprSpan_eq_of_expr? hnode₂, Tree.exprSpan_eq_of_expr? hnode']
          apply Tree.expr?_addExpr
        apply ihk _ _ hmade hadded _ rfl
        · omega
        · omega

theorem binary_produces {least : Nat} (ih : ExprsBelow o s.left)
    (h : Produces o s ExprMade (unary o s).out) :
  Produces o s ExprMade (binary o least s).out
  := by
  rw [binary_out]
  apply h.bind
  rintro id _ _ s' hm ⟨rfl, span, form, rfl, hnode⟩
  have hle := hm.left_le
  apply climb_produces ih hm hnode (by omega)

theorem argList_produces (ih : ExprsBelow o s.left) (h : Produces o s ExprMade (expr o s).out) :
  Produces o s ExprsMade (argList o s).out
  := by
  rw [argList_out]
  apply h.bind
  rintro id _ _ s' hm ⟨rfl, span, form, rfl, -⟩
  obtain ⟨htook, -⟩ | ⟨comma, rest, hs', -, htook⟩ := took?_cases s' .comma
  · rw [htook]
    exact .success hm rfl
  · rw [htook]
    have hlt := ParseState.left_advance_lt hs'
    have hle := hm.left_le
    apply Produces.andThen (hm.append (.take hs')) (ih _ (by omega)).2.2
    rintro ids _ spans s₂ _ h rfl
    exact .success h rfl

theorem args_produces (h : Produces o s ExprsMade (argList o s).out) :
  Produces o s ExprsMade (args o s).out
  := by
  cases hat : s.isAt .rparen with
  | true =>
      rw [args_none hat]
      exact .success .nothing rfl
  | false =>
      rw [args_some hat]
      apply h

theorem ident_produces (ih : ExprsBelow o s.left) (hs : s.rest = tok :: rest)
    (hk : tok.kind = .ident) :
  Produces o s ExprMade (primary o s).out
  := by
  obtain ⟨htook, -⟩ | ⟨opener, rest', hs', hopen, -⟩ := took?_cases (s.advance tok rest) .lparen
  · rw [primary_ident hs hk htook, ← Span.cover_self tok.span]
    exact produces_leaf (.take hs) nofun nofun rfl rfl
  · cases hs'
    have hs' : (s.advance tok (opener :: rest')).rest = opener :: rest' := rfl
    have hlt := ParseState.left_advance_lt hs
    have hlt' := ParseState.left_advance_lt hs'
    rw [primary_call hs hk hopen]
    apply Produces.andThen ((Builds.take hs).append (.take hs'))
      (args_produces (ih _ (by omega)).2.2)
    rintro ids _ spans s₂ _ h rfl
    apply Produces.andThen h (expect_produces ..)
    rintro closer _ _ s₃ _ h ⟨rfl, rfl⟩
    rw [List.append_nil] at h
    have hnames : (ExprForm.call tok.text tok.span ids).names
        ⊆ [tok.span] ++ [opener.span] ++ spans ++ [closer.span] := by
      simp [ExprForm.names]
    exact produces_leaf h nofun hnames rfl List.getLast?_concat

theorem group_produces (ih : ExprsBelow o s.left) (hs : s.rest = tok :: rest)
    (hk : tok.kind = .lparen) :
  Produces o s ExprMade (primary o s).out
  := by
  rw [primary_group hs hk, expr_out]
  apply Produces.andThen (.take hs) ((ih _ (ParseState.left_advance_lt hs)).1 1)
  rintro inner _ _ s₂ _ h ⟨rfl, span, form, rfl, -⟩
  apply Produces.andThen h (expect_produces ..)
  rintro closer _ _ s₃ _ h ⟨rfl, rfl⟩
  exact produces_leaf h nofun nofun rfl rfl

theorem primary_produces (ih : ExprsBelow o s.left)
    (hsign : UnaryOp.ofToken? s.peek.kind = none) :
  Produces o s ExprMade (primary o s).out
  := by
  cases hs : s.rest with
  | nil =>
      rw [primary_nil hs]
      exact .failure (.report _ none)
  | cons tok rest =>
      have hliteral : ∀ kind, Grammar.Constant tok.kind kind →
          Produces o s ExprMade (primary o s).out := by
        intro kind hk
        rw [primary_literal hs hk, ← Span.cover_self tok.span]
        exact produces_leaf (.take hs) nofun nofun rfl rfl
      cases hk : tok.kind with
      | ident => apply ident_produces ih hs hk
      | lparen => apply group_produces ih hs hk
      | number => apply hliteral .number (hk ▸ .number)
      | string => apply hliteral .string (hk ▸ .string)
      | kwTrue => apply hliteral .boolean (hk ▸ .true)
      | kwFalse => apply hliteral .boolean (hk ▸ .false)
      | invalid =>
          rw [primary_invalid hs hk]
          exact .failure (.forget (.take hs))
      | minus | bang =>
          rw [ParseState.peek_cons hs, hk] at hsign
          cases hsign
      | _ =>
          rw [primary_other hs (by rw [hk]; rfl) (by simp [hk])]
          exact .failure (.report _ none)

theorem unary_produces (ih : ExprsBelow o s.left) :
  Produces o s ExprMade (unary o s).out
  := by
  cases hop : UnaryOp.ofToken? s.peek.kind with
  | none =>
      rw [unary_primary hop]
      apply primary_produces ih hop
  | some op =>
      cases hs : s.rest with
      | nil =>
          rw [ParseState.peek_nil hs] at hop
          cases hop
      | cons tok rest =>
          rw [ParseState.peek_cons hs] at hop
          rw [unary_sign hs hop]
          apply Produces.andThen (.take hs) (ih _ (ParseState.left_advance_lt hs)).2.1
          rintro operand _ _ s₂ _ h ⟨rfl, span, form, rfl, hnode⟩
          rw [addUnary, Tree.exprSpan_eq_of_expr? hnode]
          exact produces_leaf h nofun nofun rfl rfl

theorem exprs_below (o : ParseOptions) (left : Nat) :
  ExprsBelow o left
  := by
  induction left with
  | zero =>
      intro s hs
      cases hs
  | succ left ih =>
      intro s hs
      have ih : ExprsBelow o s.left := fun s' hs' => ih s' (by omega)
      have hunary := unary_produces ih
      refine ⟨fun least => binary_produces ih hunary, hunary, argList_produces ih ?_⟩
      rw [expr_out]
      apply binary_produces ih hunary

/-- An expression that is parsed is made of one piece. -/
theorem expr_produces (s : ParseState) :
  Produces o s ExprMade (expr o s).out
  := by
  rw [expr_out]
  apply (exprs_below o (s.left + 1) s (Nat.lt_succ_self _)).1 1

/-! ### Statements -/

/-- One statement, made of one piece. -/
def StmtMade (id : StmtId) (made : List NodeRef) (spans : List Span) (_ : ParseState) : Prop :=
  made = [.stmt id] ∧ ∃ span, spans = [span]

/-- Several statements. -/
def StmtsMade (ids : List StmtId) (made : List NodeRef) (_ : List Span) (_ : ParseState) : Prop :=
  made = ids.map .stmt

/-- One expression among other pieces. -/
def CondMade (id : ExprId) (made : List NodeRef) (_ : List Span) (_ : ParseState) : Prop :=
  made = [.expr id]

/-- Parameters, which are no nodes. -/
def ParamsTaken (ps : List Param) (made : List NodeRef) (spans : List Span) (_ : ParseState) :
    Prop :=
  made = [] ∧ ps.map (·.span) ⊆ spans

theorem produces_close {form : StmtForm} (hs : s.rest = tok :: rest)
    (h : Builds o s form.refs spans s') (hknown : form.IsKnown) (hnames : form.names ⊆ spans)
    (hspans : spans ≠ []) :
  Produces o s StmtMade (close s' tok.span form)
  := .success (.stmt hs h hknown hnames hspans) ⟨rfl, _, rfl⟩

theorem produces_closeLine {form : StmtForm} (hs : s.rest = tok :: rest)
    (h : Builds o s form.refs spans s') (hknown : form.IsKnown) (hnames : form.names ⊆ spans)
    (hspans : spans ≠ []) :
  Produces o s StmtMade (closeLine s' tok.span form)
  := by
  rw [closeLine, ParseState.past]
  obtain ⟨htook, -⟩ | ⟨semi, rest', hs', -, htook⟩ := took?_cases s' .semicolon
  · rw [htook]
    apply produces_close hs h hknown hnames hspans
  · rw [htook]
    have h' := h.append (.take hs')
    rw [List.append_nil] at h'
    apply produces_close hs h' hknown
    · apply List.subset_append_of_subset_left _ hnames
    · simp

theorem letStmt_produces (hs : s.rest = tok :: rest) :
  Produces o s StmtMade (letStmt o (s.advance tok rest) tok.span).out
  := by
  rw [letStmt_out]
  apply Produces.andThen (.take hs) (expect_produces ..)
  rintro name _ _ s₂ _ h ⟨rfl, rfl⟩
  apply Produces.andThen h (expect_produces ..)
  rintro eq _ _ s₃ _ h ⟨rfl, rfl⟩
  apply Produces.andThen h (expr_produces s₃)
  rintro value _ _ s₄ _ h ⟨rfl, span, form, rfl, -⟩
  have hnames : (StmtForm.letVar name.text name.span value).names
      ⊆ [tok.span] ++ [name.span] ++ [eq.span] ++ [span] := by
    simp [StmtForm.names]
  exact produces_closeLine hs h nofun hnames (by simp)

theorem assignTo_produces {id : ExprId} {s₂ : ParseState} {span : Span} (hs : s.rest = tok :: rest)
    (h : Builds o s [.expr id] [span] s') (hspan : ∃ form, s'.tree.expr? id = some ⟨span, form⟩)
    {eq : Token} (hs₂ : Builds o s' [] [eq.span] s₂) :
  Produces o s StmtMade (assignTo o tok.span id s' s₂)
  := by
  obtain ⟨form, hnode⟩ := hspan
  rw [assignTo, hnode]
  cases form with
  | ident name =>
      apply Produces.andThen (h.forget.append hs₂) (expr_produces s₂)
      rintro value _ _ s₃ _ h ⟨rfl, span', form, rfl, -⟩
      have hnames : (StmtForm.assign name span value).names ⊆ [span] ++ [eq.span] ++ [span'] := by
        simp [StmtForm.names]
      exact produces_closeLine hs h nofun hnames (by simp)
  | _ => exact .failure (h.append (.report _ none)).forget

theorem exprStmt_produces (hs : s.rest = tok :: rest) :
  Produces o s StmtMade (exprStmt o s).out
  := by
  rw [exprStmt_out, ParseState.peek_cons hs]
  apply (expr_produces s).bind
  rintro id _ _ s' h ⟨rfl, span, form, rfl, hnode⟩
  obtain ⟨htook, -⟩ | ⟨eq, rest', hs', -, htook⟩ := took?_cases s' .assign
  · rw [htook]
    exact produces_closeLine hs h nofun nofun (by simp)
  · rw [htook]
    exact assignTo_produces hs h ⟨form, hnode⟩ (.take hs')

theorem returnStmt_produces {s₀ : ParseState} (hs : s₀.rest = tok :: rest)
    (hlt : (s₀.advance tok rest).left < s₀.left) :
  Produces o s₀ StmtMade (returnStmt o (s₀.advance tok rest) tok.span s₀ hlt).out
  := by
  cases hstart : (s₀.advance tok rest).peek.kind.startsExpr with
  | true =>
      rw [returnStmt_value tok.span hlt hstart]
      apply Produces.andThen (.take hs) (expr_produces _)
      rintro value _ _ s' _ h ⟨rfl, span, form, rfl, hnode⟩
      have hrefs : (StmtForm.ret value).refs = [.expr value] := by
        obtain _ | n := value
        · cases hnode
        · rfl
      exact produces_closeLine hs (hrefs ▸ h) nofun nofun (by simp)
  | false =>
      rw [returnStmt_bare tok.span hlt hstart]
      exact produces_closeLine hs (.take hs) nofun nofun (by simp)

theorem printStmt_produces (hs : s.rest = tok :: rest) :
  Produces o s StmtMade (printStmt o (s.advance tok rest) tok.span).out
  := by
  rw [printStmt_out]
  apply Produces.andThen (.take hs) (expr_produces _)
  rintro value _ _ s' _ h ⟨rfl, span, form, rfl, -⟩
  exact produces_closeLine hs h nofun nofun (by simp)

theorem condition_produces (keyword : Text) (s : ParseState) :
  Produces o s CondMade (condition o s keyword).out
  := by
  rw [condition_out]
  apply (expect_produces ..).bind
  rintro opener _ _ s' h ⟨rfl, rfl⟩
  apply Produces.andThen h (expr_produces s')
  rintro cond _ _ s₂ _ h ⟨rfl, span, form, rfl, -⟩
  apply Produces.andThen h (expect_produces ..)
  rintro closer _ _ s₃ _ h ⟨rfl, rfl⟩
  exact .success h rfl

theorem paramList_produces (s : ParseState) :
  Produces o s ParamsTaken (paramList o s).out
  := by
  induction hk : s.left using Nat.strongRecOn generalizing s with
  | ind k ih =>
      rw [paramList_out]
      apply (expect_produces ..).bind
      rintro name _ _ s' h ⟨rfl, rfl⟩
      obtain ⟨htook, -⟩ | ⟨comma, rest, hs', -, htook⟩ := took?_cases s' .comma
      · rw [htook]
        exact .success h ⟨rfl, by simp⟩
      · rw [htook]
        have hlt := ParseState.left_advance_lt hs'
        have hle := h.left_le
        apply Produces.andThen (h.append (.take hs')) (ih _ (by omega) _ rfl)
        rintro ps _ spans s₂ _ h ⟨rfl, hps⟩
        refine .success h ⟨rfl, ?_⟩
        rw [List.map_cons, List.cons_subset]
        exact ⟨by simp, List.subset_append_of_subset_right _ hps⟩

theorem params_produces (s : ParseState) :
  Produces o s ParamsTaken (params o s)
  := by
  rw [params]
  split
  · exact .success .nothing ⟨rfl, List.nil_subset _⟩
  · apply paramList_produces

theorem signature_produces (s : ParseState) :
  Produces o s (fun sig made spans _ => made = [] ∧ sig.1.span :: sig.2.map (·.span) ⊆ spans)
    (signature o s).out
  := by
  rw [signature_out]
  apply (expect_produces ..).bind
  rintro name _ _ s' h ⟨rfl, rfl⟩
  apply Produces.andThen h (expect_produces ..)
  rintro opener _ _ s₂ _ h ⟨rfl, rfl⟩
  apply Produces.andThen h (params_produces s₂)
  rintro ps _ spans s₃ _ h ⟨rfl, hps⟩
  apply Produces.andThen h (expect_produces ..)
  rintro closer _ _ s₄ _ h ⟨rfl, rfl⟩
  refine .success h ⟨rfl, ?_⟩
  rw [List.cons_subset]
  use by simp
  apply List.subset_append_of_subset_left
  apply List.subset_append_of_subset_right _ hps

/-- Lists of statements make statements with fewer than the given number of tokens left. -/
def ListsBuildBelow (o : ParseOptions) (left : Nat) : Prop :=
  ∀ (s : ParseState) (stop : TokenKind), s.left < left →
    ∃ spans, Builds o s ((stmtList o stop s).val.1.map .stmt) spans (stmtList o stop s).val.2

theorem block_produces {left : Nat} (ih : ListsBuildBelow o left) (hleft : s.left ≤ left) :
  Produces o s StmtsMade (block o s).out
  := by
  rw [block_out]
  apply (expect_produces ..).bind
  rintro opener _ _ s' h ⟨rfl, rfl⟩
  have hle := h.left_le
  rw [List.length_singleton] at hle
  obtain ⟨spans, hlist⟩ := ih s' .rbrace (by omega)
  apply Produces.andThen (h.append hlist) (expect_produces ..)
  rintro closer _ _ s₃ _ h ⟨rfl, rfl⟩
  rw [List.append_nil] at h
  exact .success h rfl

theorem if_produces (ih : ListsBuildBelow o s.left) (hs : s.rest = tok :: rest)
    (hk : tok.kind = .kwIf) :
  Produces o s StmtMade (stmt o s).out
  := by
  have hlt := ParseState.left_advance_lt hs
  rw [stmt_if hs hk]
  apply Produces.andThen (.take hs) (condition_produces ..)
  rintro cond _ spans s₂ h₂ h rfl
  have hle := h₂.left_le
  apply Produces.andThen h (block_produces ih (by omega))
  rintro thenBody _ spans' s₃ h₃ h rfl
  have hle' := h₃.left_le
  obtain ⟨htook, -⟩ | ⟨kw, rest', hs₃, -, htook⟩ := took?_cases s₃ .kwElse
  · rw [htook]
    have hrefs : (StmtForm.ifElse cond thenBody [] false).refs
        = [.expr cond] ++ thenBody.map .stmt := by
      simp [StmtForm.refs, StmtForm.values, StmtForm.bodies]
    rw [List.nil_append, ← hrefs] at h
    exact produces_close hs h nofun nofun (by simp)
  · rw [htook]
    have hlt₃ := ParseState.left_advance_lt hs₃
    apply Produces.andThen (h.append (.take hs₃)) (block_produces ih (by omega))
    rintro elseBody _ spans₃ s₅ - h rfl
    have hrefs : (StmtForm.ifElse cond thenBody elseBody true).refs
        = [.expr cond] ++ thenBody.map .stmt ++ elseBody.map .stmt := by
      simp [StmtForm.refs, StmtForm.values, StmtForm.bodies]
    rw [List.append_nil, List.nil_append, ← hrefs] at h
    exact produces_close hs h nofun nofun (by simp)

theorem while_produces (ih : ListsBuildBelow o s.left) (hs : s.rest = tok :: rest)
    (hk : tok.kind = .kwWhile) :
  Produces o s StmtMade (stmt o s).out
  := by
  have hlt := ParseState.left_advance_lt hs
  rw [stmt_while hs hk]
  apply Produces.andThen (.take hs) (condition_produces ..)
  rintro cond _ spans s₂ h₂ h rfl
  have hle := h₂.left_le
  apply Produces.andThen h (block_produces ih (by omega))
  rintro body _ spans' s₃ - h rfl
  have hrefs : (StmtForm.while cond body).refs = [.expr cond] ++ body.map .stmt := by
    simp [StmtForm.refs, StmtForm.values, StmtForm.bodies]
  rw [List.nil_append, ← hrefs] at h
  exact produces_close hs h nofun nofun (by simp)

theorem function_produces (ih : ListsBuildBelow o s.left) (hs : s.rest = tok :: rest)
    (hk : tok.kind = .kwFunction) :
  Produces o s StmtMade (stmt o s).out
  := by
  have hlt := ParseState.left_advance_lt hs
  rw [stmt_function hs hk]
  apply Produces.andThen (.take hs) (signature_produces _)
  rintro sig _ spans s₂ h₂ h ⟨rfl, hsig⟩
  have hle := h₂.left_le
  apply Produces.andThen h (block_produces ih (by omega))
  rintro body _ spans' s₃ - h rfl
  have hnames : sig.1.span :: sig.2.map (·.span) ⊆ [tok.span] ++ spans ++ spans' :=
    List.subset_append_of_subset_left _ (List.subset_append_of_subset_right _ hsig)
  have hrefs : (StmtForm.function sig.1.text sig.1.span sig.2 body).refs = body.map .stmt := by
    simp [StmtForm.refs, StmtForm.values, StmtForm.bodies]
  rw [List.append_nil, List.nil_append, ← hrefs] at h
  exact produces_close hs h nofun hnames (by simp)

theorem stmt_produces (ih : ListsBuildBelow o s.left) (hs : s.rest = tok :: rest) :
  Produces o s StmtMade (stmt o s).out
  := by
  cases hk : tok.kind with
  | kwLet =>
      rw [stmt_let hs hk]
      apply letStmt_produces hs
  | kwIf => apply if_produces ih hs hk
  | kwWhile => apply while_produces ih hs hk
  | kwFunction => apply function_produces ih hs hk
  | kwReturn =>
      rw [stmt_return hs hk]
      apply returnStmt_produces hs
  | kwPrint =>
      rw [stmt_print hs hk]
      apply printStmt_produces hs
  | _ =>
      rw [stmt_expr]
      · apply exprStmt_produces hs
      · rw [ParseState.peek_cons hs, hk]
        simp [isBoundary]

/-! ### Recovery and lists of statements -/

theorem builds_skipAll (s : ParseState) :
  ∃ spans, Builds o s [] spans (skipAll s).val
  := by
  fun_induction skipAll s with
  | case1 => exact ⟨_, .nothing⟩
  | case2 _ _ _ _ hnext _ ih =>
      obtain ⟨spans, ih⟩ := ih
      exact ⟨_, (Builds.next? hnext).append ih⟩

theorem builds_skipToBoundary (s : ParseState) :
  ∃ spans, Builds o s [] spans (skipToBoundary s).val
  := by
  fun_induction skipToBoundary s with
  | case1 | case2 => exact ⟨_, .nothing⟩
  | case3 _ _ _ _ _ hnext => exact ⟨_, Builds.next? hnext⟩
  | case4 _ _ _ _ _ hnext _ _ ih =>
      obtain ⟨spans, ih⟩ := ih
      exact ⟨_, (Builds.next? hnext).append ih⟩

theorem builds_resync (h : s'.left ≤ s.left) (pos : 0 < s.left) :
  ∃ spans, Builds o s' [] spans (resync s s' h pos).val
  := by
  have hstuck : ∃ spans, Builds o s' [] spans (skipStuck s s' h pos).val := by
    unfold skipStuck
    split
    · exact ⟨_, .nothing⟩
    · split
      · next hnext => exact ⟨_, Builds.next? hnext⟩
      · exact ⟨_, .nothing⟩
  obtain ⟨spans, hstuck⟩ := hstuck
  obtain ⟨spans', hskip⟩ := builds_skipToBoundary (o := o) (skipStuck s s' h pos).val
  exact ⟨_, hstuck.append hskip⟩

/-- What a list of statements does next: it ends, it gives up, or it goes on after a statement or
after recovering from one. -/
theorem stmtList_cases (o : ParseOptions) (stop : TokenKind) (s : ParseState) :
  (stmtList o stop s).val = ([], s)
    ∨ (stmtList o stop s).val = ([], (skipAll s).val)
    ∨ s.rest ≠ [] ∧ ((∃ id s', (stmt o s).out = (some id, s')
        ∧ (stmtList o stop s).val = (id :: (stmtList o stop s').val.1, (stmtList o stop s').val.2))
      ∨ ∃ s' h pos, (stmt o s).out = (none, s')
        ∧ (stmtList o stop s).val = (stmtList o stop (resync s s' h pos).val).val)
  := by
  rw [stmtList]
  split
  · exact .inl rfl
  · next hmore =>
    split
    · exact .inr (.inl rfl)
    · have hpos : 0 < s.left := Nat.pos_of_ne_zero fun hleft => hmore (.inl hleft)
      refine .inr (.inr ⟨List.ne_nil_of_length_pos hpos, ?_⟩)
      rcases stmt o s with ⟨_ | id, s', le, lt⟩
      · exact .inr ⟨s', le, hpos, rfl, rfl⟩
      · exact .inl ⟨id, s', rfl, rfl⟩

theorem lists_build_below (o : ParseOptions) (left : Nat) :
  ListsBuildBelow o left
  := by
  induction left with
  | zero =>
      intro s stop hs
      cases hs
  | succ left ih =>
      intro s stop hs
      have ih : ListsBuildBelow o s.left := fun s' stop hs' => ih s' stop (by omega)
      obtain hend | hskip | ⟨hrest, hgo⟩ := stmtList_cases o stop s
      · rw [hend]
        exact ⟨_, .nothing⟩
      · rw [hskip]
        apply builds_skipAll
      · obtain ⟨tok, rest, hs⟩ := List.exists_cons_of_ne_nil hrest
        have hstmt := stmt_produces ih hs
        obtain ⟨id, s', hout, hlist⟩ | ⟨s', h, pos, hout, hlist⟩ := hgo
        · rw [hout] at hstmt
          rw [hlist]
          obtain ⟨hmade, rfl, span, rfl⟩ := hstmt
          obtain ⟨spans, hlater⟩ := ih s' stop hmade.left_le
          exact ⟨_, hmade.append hlater⟩
        · rw [hout] at hstmt
          rw [hlist]
          obtain - | hfailed := hstmt
          obtain ⟨spans, hresync⟩ := builds_resync (o := o) h pos
          obtain ⟨spans', hlater⟩ := ih _ stop (resync s s' h pos).property
          exact ⟨_, (hfailed.append hresync).append hlater⟩

/-- Statements are made up to the end, whatever is skipped between them. -/
theorem builds_stmtList (stop : TokenKind) (s : ParseState) :
  ∃ spans, Builds o s ((stmtList o stop s).val.1.map .stmt) spans (stmtList o stop s).val.2
  := lists_build_below o (s.left + 1) s stop (Nat.lt_succ_self _)

end Parser

end ThreeAddress
