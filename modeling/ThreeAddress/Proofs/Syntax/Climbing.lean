import Mathlib.Tactic.Common
import ThreeAddress.Proofs.Syntax.Arena
import ThreeAddress.Proofs.Syntax.Steps

/-!
# Expressions that the grammar derives are parsed

The parser of binary operators climbs: it parses an operand and then extends it by operators that
bind at least as strongly as a given level.  Climbing at a level is climbing at the next level first
and then at the level itself, and so an operand that the grammar derives at a level is parsed up to
the place where climbing goes on.
-/

namespace ThreeAddress

open Outcome Grammar

/-- The tokens `ts` are taken between `s` and `s'`, without an error. -/
structure Takes (s : ParseState) (ts : List Token) (s' : ParseState) : Prop where
  rest : s.rest = ts ++ s'.rest
  last : s'.last = (ts.getLast?.map Token.span).getD s.last
  errors : s'.errors = s.errors
  tree : s.tree.Extends s'.tree

namespace Takes

variable {s s' s₂ : ParseState} {tok : Token} {ts ts' rest : List Token}

theorem refl (s : ParseState) :
  Takes s [] s
  := ⟨rfl, rfl, rfl, .refl _⟩

theorem trans (h : Takes s ts s') (h' : Takes s' ts' s₂) :
  Takes s (ts ++ ts') s₂
  := by
  constructor
  · rw [h.rest, h'.rest, List.append_assoc]
  · rw [h'.last, h.last, List.getLast?_append]
    cases ts'.getLast? with
    | none => rfl
    | some tok => rfl
  · rw [h'.errors, h.errors]
  · apply h.tree.trans h'.tree

theorem advance (h : s.rest = tok :: rest) :
  Takes s [tok] (s.advance tok rest)
  := ⟨h, rfl, rfl, .refl _⟩

theorem cons (hs : s.rest = tok :: rest) (h : Takes (s.advance tok rest) ts s') :
  Takes s (tok :: ts) s'
  := (advance hs).trans h

theorem addExpr (h : Takes s ts s') (span : Span) (form : ExprForm) :
  Takes s ts (s'.addExpr span form).2
  := ⟨h.rest, h.last, h.errors, h.tree.trans (.addExpr _ span form)⟩

theorem addStmt (h : Takes s ts s') (span : Span) (form : StmtForm) :
  Takes s ts (s'.addStmt span form).2
  := ⟨h.rest, h.last, h.errors, h.tree.trans (.addStmt _ span form)⟩

theorem rest_eq (h : Takes s ts s') (hs : s.rest = ts ++ rest) :
  s'.rest = rest
  := List.append_cancel_left (h.rest.symm.trans hs)

theorem isEnough {o : ParseOptions} (h : Takes s ts s') (hs : s.isEnough o = false) :
  s'.isEnough o = false
  := by
  rw [ParseState.isEnough, ParseState.counter, h.errors]
  apply hs

end Takes

/-! ### Climbing -/

namespace Parser

variable {o : ParseOptions} {s : ParseState}

/-- An operator that is next is the first of the tokens that are left. -/
theorem next_of_operator {op : BinaryOp} (h : BinaryOp.ofToken? s.peek.kind = some op) :
  ∃ tok rest, s.rest = tok :: rest ∧ BinaryOp.ofToken? tok.kind = some op
  := by
  cases hrest : s.rest with
  | nil =>
      rw [ParseState.peek_nil hrest] at h
      cases h
  | cons tok rest =>
      rw [ParseState.peek_cons hrest] at h
      exact ⟨tok, rest, rfl, h⟩

/-- Climbing stops, or it goes on with an operator that binds strongly enough. -/
theorem climb_cases (least : Nat) (s : ParseState) :
  (∀ op, BinaryOp.ofToken? s.peek.kind = some op → op.precedence < least)
    ∨ ∃ tok rest op, s.rest = tok :: rest ∧ BinaryOp.ofToken? tok.kind = some op
      ∧ least ≤ op.precedence
  := by
  by_cases hstop : ∀ op, BinaryOp.ofToken? s.peek.kind = some op → op.precedence < least
  · exact .inl hstop
  · obtain ⟨op, hop, hle⟩ : ∃ op, BinaryOp.ofToken? s.peek.kind = some op
        ∧ least ≤ op.precedence := by
      simpa using hstop
    obtain ⟨tok, rest, hrest, hop⟩ := next_of_operator hop
    exact .inr ⟨tok, rest, op, hrest, hop, hle⟩

/-- Climbing ends before an operator of a looser level. -/
theorem climb_end {n : Nat} (id : ExprId)
    (h : ∀ m k op, next s.rest = some k → Operator m k op → m < n) :
  (climb o n id s).out = (some id, s)
  := by
  apply climb_stop
  intro op hop
  obtain ⟨tok, rest, hrest, hop⟩ := next_of_operator hop
  apply h _ tok.kind op
  · rw [hrest]
    rfl
  · apply operator_iff.mpr ⟨hop, rfl⟩

/-- Climbing at a level is climbing at the next level and then at the level itself. -/
theorem climb_tighter (n : Nat) (id : ExprId) (s : ParseState) :
  (climb o n id s).out
    = (climb o (n + 1) id s).out.andThen fun id' s' => (climb o n id' s').out
  := by
  induction hleft : s.left using Nat.strongRecOn generalizing id s with
  | ind left ih =>
      obtain hstop | ⟨tok, rest, op, hrest, hop, hle⟩ := climb_cases (n + 1) s
      · rw [climb_stop hstop, andThen_some]
      · rw [climb_go hrest hop (Nat.le_of_succ_le hle), climb_go hrest hop hle]
        rcases binary o (op.precedence + 1) (s.advance tok rest) with ⟨_ | right, s₂, le, lt⟩
        · rfl
        · dsimp only [Parsed.out, andThen_some]
          apply ih _ _ _ _ rfl
          rw [← hleft]
          apply Nat.lt_of_le_of_lt le (ParseState.left_advance_lt hrest)

theorem binary_tighter (n : Nat) (s : ParseState) :
  (binary o n s).out
    = (binary o (n + 1) s).out.andThen fun id s' => (climb o n id s').out
  := by
  rw [binary_out, binary_out]
  rcases unary o s with ⟨_ | id, s', le, lt⟩
  · rfl
  · apply climb_tighter

/-- No operator is as tight as the unary ones. -/
theorem binary_unary (s : ParseState) :
  (binary o 7 s).out = (unary o s).out
  := by
  rw [binary_out]
  rcases unary o s with ⟨_ | id, s', le, lt⟩
  · rfl
  · apply climb_end
    intro m k op _ hop
    apply Nat.lt_succ_of_le hop.level_le.2

/-! ### Nodes of expressions -/

/-- An expression that is added is read as the expression of its form. -/
theorem leaf_reads {span : Span} {form : ExprForm} {e : Expr}
    (h : ∀ t', s.tree.Extends t' → ∀ depth, s.tree.exprs.size ≤ depth →
      t'.formTo depth span form = e) :
  (s.addExpr span form).2.tree.Reads (s.addExpr span form).1 e
  := Tree.reads_addExpr h

theorem addBinary_reads {op : BinaryOp} {left right : ExprId} {l r : Expr}
    (hl : s.tree.Reads left l) (hr : s.tree.Reads right r) :
  (addBinary op left right s).2.tree.Reads (addBinary op left right s).1
    (.binary (l.span.cover r.span) op l r)
  := by
  apply leaf_reads
  intro t' hext depth hdepth
  rw [hl.exprSpan_eq, hr.exprSpan_eq, Tree.formTo, hl.exprTo_eq hext hdepth,
    hr.exprTo_eq hext hdepth]

theorem addUnary_reads {start : Span} {op : UnaryOp} {operand : ExprId} {e : Expr}
    (h : s.tree.Reads operand e) :
  (addUnary start op operand s).2.tree.Reads (addUnary start op operand s).1
    (.unary (start.cover e.span) op e)
  := by
  apply leaf_reads
  intro t' hext depth hdepth
  rw [h.exprSpan_eq, Tree.formTo, h.exprTo_eq hext hdepth]

/-! ### Expressions -/

/-- An operand `ts` of level `n` ends before `rest`: no operator of a tighter level follows, and no
parenthesis follows a name. -/
def EndsAt (n : Nat) (ts rest : List Token) : Prop :=
  (∀ m k op, next rest = some k → Operator m k op → m ≤ n)
    ∧ (next rest = some .lparen → ∀ tok, ts.getLast? = some tok → tok.kind ≠ .ident)

/-- The tokens `ts` are parsed as the part of an expression that they stand for: an operand up to
the place where climbing goes on, arguments up to the closing parenthesis. -/
def Parses (o : ParseOptions) : Part → List Token → List Expr → Prop
  | .operand n, ts, es => ∀ s rest, s.rest = ts ++ rest → EndsAt n ts rest →
      ∃ id s', (binary o n s).out = (climb o n id s').out ∧ Takes s ts s'
        ∧ List.Forall₂ s'.tree.Reads [id] es
  | .arguments, ts, es => ∀ s rest, s.rest = ts ++ rest → next rest = some .rparen →
      ∃ ids s', (argList o s).out = (some ids, s') ∧ Takes s ts s'
        ∧ List.Forall₂ s'.tree.Reads ids es

variable {n : Nat} {ts ts' rest : List Token} {es : List Expr}

theorem endsAt_zero :
  EndsAt 0 ts rest ↔ Ends ts rest
  := by
  apply and_congr_left'
  constructor
  · intro h n k op hk hop
    have := h n k op hk hop
    have := hop.level_le.1
    omega
  · intro h n k op hk hop
    cases h n k op hk hop

theorem EndsAt.of_le {m : Nat} (hmn : m ≤ n) (h : EndsAt m ts rest) :
  EndsAt n ts rest
  := ⟨fun p k op hk hop => Nat.le_trans (h.1 p k op hk hop) hmn, h.2⟩

/-- An operand ends before a token that is neither an operator nor an opening parenthesis. -/
theorem EndsAt.of_next {k : TokenKind} (hnext : next rest = some k) (hk : k ≠ .lparen)
    (hop : BinaryOp.ofToken? k = none) :
  EndsAt n ts rest
  := by
  constructor
  · intro m k' op hk' h
    rw [hnext, Option.some.injEq] at hk'
    subst hk'
    rw [operator_iff, hop] at h
    cases h.1
  · intro h
    rw [hnext, Option.some.injEq] at h
    contradiction

/-- The last operand ends where the whole does. -/
theorem EndsAt.of_append (h : EndsAt n (ts ++ ts') rest) :
  EndsAt n ts' rest
  := by
  use h.1
  intro hnext tok htok
  apply h.2 hnext tok
  rw [List.getLast?_append, htok]
  rfl

/-- Before looser operators, an operand is parsed to its end. -/
theorem Parses.done (h : Parses o (.operand (n + 1)) ts es) (hs : s.rest = ts ++ rest)
    (hends : EndsAt n ts rest) :
  ∃ id s', (binary o (n + 1) s).out = (some id, s') ∧ Takes s ts s'
    ∧ List.Forall₂ s'.tree.Reads [id] es
  := by
  obtain ⟨id, s', hout, htakes, hreads⟩ := h s rest hs (hends.of_le (Nat.le_succ n))
  refine ⟨id, s', ?_, htakes, hreads⟩
  rw [hout]
  apply climb_end
  intro m k op hk hop
  rw [htakes.rest_eq hs] at hk
  apply Nat.lt_succ_of_le (hends.1 m k op hk hop)

theorem Parses.expr {e : Expr} (h : Parses o (.operand 1) ts [e]) (hs : s.rest = ts ++ rest)
    (hends : EndsAt 0 ts rest) :
  ∃ id s', (expr o s).out = (some id, s') ∧ Takes s ts s' ∧ s'.tree.Reads id e
  := by
  obtain ⟨id, s', hout, htakes, _ | ⟨hreads, -⟩⟩ := h.done hs hends
  exact ⟨id, s', expr_out.trans hout, htakes, hreads⟩

theorem Parses.tighter (h : Parses o (.operand (n + 1)) ts es) :
  Parses o (.operand n) ts es
  := by
  intro s rest hs hends
  obtain ⟨id, s', hout, htakes, hreads⟩ := h.done hs hends
  refine ⟨id, s', ?_, htakes, hreads⟩
  rw [binary_tighter, hout, andThen_some]

/-- What `unary` parses is an operand of the tightest level. -/
theorem parses_of_unary {e : Expr}
    (h : ∀ s rest, s.rest = ts ++ rest → EndsAt 7 ts rest →
      ∃ id s', (unary o s).out = (some id, s') ∧ Takes s ts s' ∧ s'.tree.Reads id e) :
  Parses o (.operand 7) ts [e]
  := by
  intro s rest hs hends
  obtain ⟨id, s', hout, htakes, hreads⟩ := h s rest hs hends
  refine ⟨id, s', ?_, htakes, .cons hreads .nil⟩
  rw [binary_out, hout, andThen_some]

theorem Parses.binary {tok : Token} {op : BinaryOp} {l r : Expr} (hop : Operator n tok.kind op)
    (hl : Parses o (.operand n) ts [l]) (hr : Parses o (.operand (n + 1)) ts' [r]) :
  Parses o (.operand n) (ts ++ tok :: ts') [.binary (l.span.cover r.span) op l r]
  := by
  intro s rest hs hends
  rw [List.append_assoc, List.cons_append] at hs
  obtain ⟨htok, rfl⟩ := operator_iff.mp hop
  have hleft : EndsAt op.precedence ts (tok :: (ts' ++ rest)) := by
    constructor
    · rintro m k op' ⟨⟩ hop'
      obtain ⟨htok', rfl⟩ := operator_iff.mp hop'
      rw [htok] at htok'
      cases htok'
      apply Nat.le_refl
    · intro hnext
      rw [next, List.head?_cons, Option.map_some, Option.some.injEq] at hnext
      rw [hnext] at htok
      cases htok
  obtain ⟨left, s₁, hout, htakes, _ | ⟨hreads, -⟩⟩ := hl s _ hs hleft
  have hs₁ := htakes.rest_eq hs
  rw [List.append_cons] at hends
  obtain ⟨right, s₂, hout', htakes', _ | ⟨hreads', -⟩⟩ :=
    hr.done (s := s₁.advance tok (ts' ++ rest)) rfl hends.of_append
  refine ⟨(addBinary op left right s₂).1, (addBinary op left right s₂).2, ?_, ?_, .cons ?_ .nil⟩
  · rw [hout, climb_go hs₁ htok (Nat.le_refl _), hout', andThen_some]
  · rw [List.append_cons]
    apply Takes.addExpr
    apply (htakes.trans (.advance hs₁)).trans htakes'
  · apply addBinary_reads (hreads.mono htakes'.tree) hreads'

theorem Parses.unary {tok : Token} {op : UnaryOp} {e : Expr} (hop : Sign tok.kind op)
    (h : Parses o (.operand 7) ts [e]) :
  Parses o (.operand 7) (tok :: ts) [.unary (tok.span.cover e.span) op e]
  := by
  apply parses_of_unary
  intro s rest hs hends
  rw [List.cons_append] at hs
  have hends' : EndsAt 6 ts rest := by
    constructor
    · intro m k op _ hop
      apply hop.level_le.2
    · rw [← List.singleton_append] at hends
      apply hends.of_append.2
  obtain ⟨operand, s', hout, htakes, _ | ⟨hreads, -⟩⟩ :=
    h.done (s := s.advance tok (ts ++ rest)) rfl hends'
  rw [binary_unary] at hout
  refine ⟨(addUnary tok.span op operand s').1, (addUnary tok.span op operand s').2, ?_, ?_, ?_⟩
  · rw [unary_sign hs (sign_iff.mp hop), hout, andThen_some]
  · apply Takes.addExpr
    apply Takes.cons hs htakes
  · apply addUnary_reads hreads

/-- What `primary` parses without a unary operator is an operand of the tightest level. -/
theorem parses_of_primary {tok : Token} {e : Expr} (hop : UnaryOp.ofToken? tok.kind = none)
    (h : ∀ s rest, s.rest = tok :: (ts ++ rest) → EndsAt 7 (tok :: ts) rest →
      ∃ span form s', (primary o s).out = leaf s' span form ∧ Takes s (tok :: ts) s'
        ∧ ∀ t', s'.tree.Extends t' → ∀ depth, s'.tree.exprs.size ≤ depth →
          t'.formTo depth span form = e) :
  Parses o (.operand 7) (tok :: ts) [e]
  := by
  apply parses_of_unary
  intro s rest hs hends
  obtain ⟨span, form, s', hout, htakes, hreads⟩ := h s rest hs hends
  refine ⟨_, _, ?_, htakes.addExpr span form, Tree.reads_addExpr hreads⟩
  rw [unary_primary, hout]
  · rfl
  · rwa [ParseState.peek_cons hs]

theorem parses_literal {tok : Token} {kind : LiteralKind} (hk : Constant tok.kind kind) :
  Parses o (.operand 7) [tok] [.literal tok.span kind tok.text]
  := by
  apply parses_of_primary
  · generalize tok.kind = k at hk
    cases hk <;> rfl
  · intro s rest hs _
    refine ⟨tok.span, .literal kind tok.text, _, primary_literal hs hk, .advance hs, ?_⟩
    intros
    rfl

theorem parses_ident {tok : Token} (hk : tok.kind = .ident) :
  Parses o (.operand 7) [tok] [.ident tok.span tok.text]
  := by
  apply parses_of_primary
  · rw [hk]
    rfl
  · intro s rest hs hends
    have hopen : (s.advance tok rest).took? .lparen = none := by
      apply ParseState.took?_of_next
      intro hnext
      apply hends.2 hnext tok rfl hk
    refine ⟨tok.span, .ident tok.text, _, primary_ident hs hk hopen, .advance hs, ?_⟩
    intros
    rfl

theorem Parses.group {opener closer : Token} {e : Expr} (hopen : opener.kind = .lparen)
    (h : Parses o (.operand 1) ts [e]) (hclose : closer.kind = .rparen) :
  Parses o (.operand 7) (opener :: (ts ++ [closer]))
    [.group (opener.span.cover closer.span) e]
  := by
  apply parses_of_primary
  · rw [hopen]
    rfl
  · intro s rest hs _
    rw [List.append_assoc, List.singleton_append] at hs
    have hends : EndsAt 0 ts (closer :: rest) :=
      .of_next (congrArg some hclose) (by decide) rfl
    obtain ⟨id, s', hout, htakes, hreads⟩ :=
      h.expr (s := s.advance opener (ts ++ closer :: rest)) rfl hends
    have hs' := htakes.rest_eq rfl
    refine ⟨opener.span.cover closer.span, .group id, _, ?_,
      Takes.cons hs (htakes.trans (.advance hs')), ?_⟩
    · rw [primary_group hs hopen, hout, andThen_some, expect_of_eq _ _ hs' hclose, andThen_some]
    · intro t' hext depth hdepth
      rw [Tree.formTo, hreads.exprTo_eq hext hdepth]

/-- The arguments of a call are parsed up to the closing parenthesis. -/
theorem parses_call {name opener closer : Token} (hname : name.kind = .ident)
    (hopen : opener.kind = .lparen) (hclose : closer.kind = .rparen)
    (h : ∀ s rest, s.rest = ts ++ closer :: rest →
      ∃ ids s', (args o s).out = (some ids, s') ∧ Takes s ts s'
        ∧ List.Forall₂ s'.tree.Reads ids es) :
  Parses o (.operand 7) (name :: opener :: (ts ++ [closer]))
    [.call (name.span.cover closer.span) name.text name.span es]
  := by
  apply parses_of_primary
  · rw [hname]
    rfl
  · intro s rest hs _
    rw [List.cons_append, List.append_assoc, List.singleton_append] at hs
    obtain ⟨ids, s', hout, htakes, hreads⟩ :=
      h ((s.advance name (opener :: (ts ++ closer :: rest))).advance opener _) rest rfl
    have hs' := htakes.rest_eq rfl
    refine ⟨name.span.cover closer.span, .call name.text name.span ids, _, ?_,
      Takes.cons hs (Takes.cons rfl (htakes.trans (.advance hs'))), ?_⟩
    · rw [primary_call hs hname hopen, hout, andThen_some, expect_of_eq _ _ hs' hclose,
        andThen_some]
    · intro t' hext depth hdepth
      rw [Tree.formTo, Tree.Reads.map_exprTo_eq hreads hext hdepth]

theorem Parses.argument {e : Expr} (h : Parses o (.operand 1) ts [e]) :
  Parses o .arguments ts [e]
  := by
  intro s rest hs hnext
  obtain ⟨id, s', hout, htakes, hreads⟩ := h.expr hs (.of_next hnext (by decide) rfl)
  refine ⟨[id], s', ?_, htakes, .cons hreads .nil⟩
  have hcomma : s'.took? .comma = none := by
    apply ParseState.took?_of_next
    rw [htakes.rest_eq hs, hnext]
    decide
  rw [argList_out, hout, andThen_some, hcomma]

theorem Parses.arguments {comma : Token} {e : Expr} (h : Parses o (.operand 1) ts [e])
    (hcomma : comma.kind = .comma) (h' : Parses o .arguments ts' es) :
  Parses o .arguments (ts ++ comma :: ts') (e :: es)
  := by
  intro s rest hs hnext
  rw [List.append_assoc, List.cons_append] at hs
  obtain ⟨id, s', hout, htakes, hreads⟩ :=
    h.expr hs (.of_next (congrArg some hcomma) (by decide) rfl)
  have hs' := htakes.rest_eq hs
  obtain ⟨ids, s₂, hout', htakes', hreads'⟩ :=
    h' (s'.advance comma (ts' ++ rest)) rest rfl hnext
  refine ⟨id :: ids, s₂, ?_, ?_, .cons (hreads.mono htakes'.tree) hreads'⟩
  · rw [argList_out, hout, andThen_some, ParseState.took?_of_eq hs' hcomma]
    dsimp only
    rw [hout', andThen_some]
  · apply htakes.trans (.cons hs' htakes')

/-- Every part of an expression is parsed as what it stands for. -/
theorem parses_of_derives {part : Part} (h : Derives part ts es) :
  Parses o part ts es
  := by
  induction h with
  | tighter _ ih => apply ih.tighter
  | binary hop _ _ ihl ihr => apply Parses.binary hop ihl ihr
  | unary hop _ ih => apply Parses.unary hop ih
  | literal hk => apply parses_literal hk
  | ident hk => apply parses_ident hk
  | group hopen _ hclose ih => apply Parses.group hopen ih hclose
  | callNone hname hopen hclose =>
      apply @parses_call _ [] _ _ _ _ hname hopen hclose
      intro s rest hs
      refine ⟨[], s, ?_, .refl s, .nil⟩
      apply args_none (ParseState.isAt_of_eq hs hclose)
  | call hname hopen hargs hclose ih =>
      apply parses_call hname hopen hclose
      intro s rest hs
      rw [args_some]
      · apply ih s _ hs (congrArg some hclose)
      · obtain ⟨tok, ts', rfl, htok⟩ := hargs.exists_head
        apply ParseState.isAt_of_ne hs
        intro hk
        rw [hk] at htok
        cases htok
  | argument _ ih => apply ih.argument
  | arguments _ hcomma _ ih ih' => apply Parses.arguments ih hcomma ih'

/-- Every expression is parsed, if it ends where it says. -/
theorem expr_of_isExpr {e : Expr} (h : IsExpr ts e) (hs : s.rest = ts ++ rest)
    (hends : Ends ts rest) :
  ∃ id s', (expr o s).out = (some id, s') ∧ Takes s ts s' ∧ s'.tree.Reads id e
  := (parses_of_derives h).expr hs (endsAt_zero.mpr hends)

end Parser

end ThreeAddress
