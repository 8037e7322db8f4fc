import ThreeAddress.Proofs.Syntax.Climbing

/-!
# Programs that the grammar derives are parsed

Statements are parsed one by one, and so the statements that the grammar derives are parsed up to
the place where the list of statements goes on.  What comes after a statement is no `=` and no
`else`, since no statement starts with one of them, and so a name alone is an expression and an `if`
without an `else` is complete.
-/

namespace ThreeAddress

open Outcome Grammar

/-! ### First tokens of statements -/

namespace Grammar

/-- A statement can start with a token of this kind. -/
def StartsStmt (k : TokenKind) : Prop :=
  k.startsExpr ∨ Parser.isBoundary k ∧ k ≠ .rbrace

/-- A token of this kind can come after a statement, as far as the statement is concerned. -/
def EndsStmt (rest : List Token) : Prop :=
  next rest ≠ some .assign ∧ next rest ≠ some .kwElse

theorem StartsStmt.ne {k : TokenKind} (h : StartsStmt k) :
  k ≠ .assign ∧ k ≠ .kwElse ∧ k ≠ .rbrace ∧ k ≠ .eof
  := by
  unfold StartsStmt at h
  refine ⟨?_, ?_, ?_, ?_⟩
  all_goals
    rintro rfl
    revert h
    decide

theorem next_append (ts rest : List Token) :
  next (ts ++ rest) = (next ts).or (next rest)
  := by
  cases ts with
  | nil => rfl
  | cons tok ts => rfl

/-- Statements start with a token that starts a statement, unless there are none. -/
theorem Statements.head {ts rest : List Token} {ss : List Stmt} (h : Statements ts rest ss) :
  ts = [] ∧ ss = [] ∨ ∃ k, next ts = some k ∧ StartsStmt k
  := by
  induction h with
  | nil => exact .inl ⟨rfl, rfl⟩
  | cons _ _ ih _ =>
      obtain ⟨_, ⟨⟩⟩ | ⟨k, hnext, hk⟩ := ih
      refine .inr ⟨k, ?_, hk⟩
      rw [next_append, hnext]
      rfl
  | letVar hts hk | ifThen hts hk | ifElse hts hk | «while» hts hk | function hts hk | ret hts hk
  | retValue hts hk | print hts hk =>
      refine .inr ⟨_, (congrArg next hts).trans (congrArg some hk), .inr ?_⟩
      decide
  | assign hts hk =>
      exact .inr ⟨_, (congrArg next hts).trans (congrArg some hk), .inl rfl⟩
  | expr hts hexpr =>
      obtain ⟨tok, ts', rfl, htok⟩ := hexpr.exists_head
      exact .inr ⟨_, congrArg next hts, .inl htok⟩

/-- What comes before statements may also come before what is after them. -/
theorem EndsStmt.append {ts rest : List Token} {ss : List Stmt} (h : EndsStmt rest)
    (hss : Statements ts rest ss) :
  EndsStmt (ts ++ rest)
  := by
  obtain ⟨rfl, -⟩ | ⟨k, hnext, hk⟩ := hss.head
  · apply h
  · rw [EndsStmt, next_append, hnext]
    have hne := hk.ne
    simp only [Option.some_or, ne_eq, Option.some.injEq]
    exact ⟨hne.1, hne.2.1⟩

end Grammar

/-! ### Nodes of statements -/

theorem Takes.past {s : ParseState} {semi rest : List Token} (hs : s.rest = semi ++ rest)
    (hsemi : Semicolon semi rest) :
  Takes s semi (s.past .semicolon)
  := by
  obtain ⟨tok, rfl, htok⟩ | ⟨rfl, hnext⟩ := hsemi
  · rw [ParseState.past, ParseState.took?_of_eq hs htok]
    apply Takes.advance hs
  · rw [ParseState.past, ParseState.took?_of_next]
    · apply Takes.refl
    · rwa [hs]

namespace Parser

variable {o : ParseOptions} {s s' : ParseState} {tok : Token} {all rest : List Token}

/-- A statement that is added is read as the statement of its form. -/
theorem close_reads {ts : List Token} {form : StmtForm} {st : Stmt} (h : Takes s all s')
    (hall : all = tok :: ts)
    (hform : ∀ t', s'.tree.Extends t' → ∀ depth, s'.tree.stmts.size ≤ depth →
      t'.stmtFormTo depth (spanOf all) form = st) :
  ∃ id s₂, close s' tok.span form = (some id, s₂) ∧ Takes s all s₂ ∧ s₂.tree.ReadsStmt id st
  := by
  have hspan : tok.span.cover s'.last = spanOf all := by
    rw [h.last, spanOf, hall, List.getLast?_cons]
    rfl
  refine ⟨_, _, rfl, h.addStmt _ form, Tree.readsStmt_addStmt ?_⟩
  rwa [hspan]

/-- The same for a statement with an optional semicolon. -/
theorem closeLine_reads {ts ts' semi : List Token} {form : StmtForm} {st : Stmt}
    (h : Takes s ts s') (hs : s.rest = all ++ rest) (hall : all = tok :: ts')
    (hsemi : Semicolon semi rest) (heq : ts ++ semi = all)
    (hform : ∀ t', s'.tree.Extends t' → ∀ depth, t'.stmtFormTo depth (spanOf all) form = st) :
  ∃ id s₂, closeLine s' tok.span form = (some id, s₂) ∧ Takes s all s₂
    ∧ s₂.tree.ReadsStmt id st
  := by
  rw [← heq, List.append_assoc] at hs
  have hpast := Takes.past (h.rest_eq hs) hsemi
  apply close_reads (heq ▸ h.trans hpast) hall
  intro t' hext depth _
  apply hform t' (hpast.tree.trans hext)

/-! ### Lines -/

/-- The tokens `all`, before `rest`, are parsed as the statement `st`. -/
def ParsesStmt (o : ParseOptions) (all rest : List Token) (st : Stmt) : Prop :=
  ∀ s, s.rest = all ++ rest → s.isEnough o = false → EndsStmt rest →
    ∃ id s', (stmt o s).out = (some id, s') ∧ Takes s all s' ∧ s'.tree.ReadsStmt id st

section Lines

variable {kw name eq : Token} {ts semi : List Token} {e : Expr}

theorem parses_letVar (hall : all = kw :: name :: eq :: (ts ++ semi)) (hk : kw.kind = .kwLet)
    (hname : name.kind = .ident) (heq : eq.kind = .assign) (he : IsExpr ts e)
    (hends : Ends ts (semi ++ rest)) (hsemi : Semicolon semi rest) :
  ParsesStmt o all rest (.letVar (spanOf all) name.text name.span e)
  := by
  intro s hs _ _
  have hkw : s.rest = kw :: name :: eq :: (ts ++ (semi ++ rest)) := by simp [hs, hall]
  obtain ⟨id, s', hout, htakes, hreads⟩ := expr_of_isExpr (o := o)
    (s := ((s.advance kw _).advance name _).advance eq (ts ++ (semi ++ rest))) he rfl hends
  rw [stmt_let hkw hk, letStmt_out, expect_of_eq _ _ rfl hname, andThen_some,
    expect_of_eq _ _ rfl heq, andThen_some, hout, andThen_some]
  apply closeLine_reads (.cons hkw (.cons rfl (.cons rfl htakes))) hs hall hsemi hall.symm
  intro t' hext depth
  rw [Tree.stmtFormTo, hreads.expr_eq hext]

theorem parses_retValue (hall : all = kw :: (ts ++ semi)) (hk : kw.kind = .kwReturn)
    (he : IsExpr ts e) (hends : Ends ts (semi ++ rest)) (hsemi : Semicolon semi rest) :
  ParsesStmt o all rest (.ret (spanOf all) (some e))
  := by
  intro s hs _ _
  have hkw : s.rest = kw :: (ts ++ (semi ++ rest)) := by simp [hs, hall]
  obtain ⟨id, s', hout, htakes, hreads⟩ := expr_of_isExpr (o := o)
    (s := s.advance kw (ts ++ (semi ++ rest))) he rfl hends
  have hstart : (s.advance kw (ts ++ (semi ++ rest))).peek.kind.startsExpr := by
    obtain ⟨tok, ts', rfl, htok⟩ := he.exists_head
    apply htok
  rw [stmt_return hkw hk, returnStmt_value _ _ hstart, hout, andThen_some]
  apply closeLine_reads (.cons hkw htakes) hs hall hsemi hall.symm
  intro t' hext depth
  rw [Tree.stmtFormTo, hreads.expr_eq hext, if_neg hreads.ne_zero]

theorem parses_ret (hall : all = kw :: semi) (hk : kw.kind = .kwReturn)
    (hstart : ∀ k, next (semi ++ rest) = some k → ¬ StartsExpr k) (hsemi : Semicolon semi rest) :
  ParsesStmt o all rest (.ret (spanOf all) none)
  := by
  intro s hs _ _
  have hkw : s.rest = kw :: (semi ++ rest) := by simp [hs, hall]
  have hbare : (s.advance kw (semi ++ rest)).peek.kind.startsExpr = false := by
    cases htok : semi ++ rest with
    | nil => rfl
    | cons tok ts =>
        rw [htok] at hstart
        apply Bool.eq_false_iff.mpr (mt startsExpr_iff.mpr (hstart tok.kind rfl))
  rw [stmt_return hkw hk, returnStmt_bare _ _ hbare]
  apply closeLine_reads (.advance hkw) hs hall hsemi hall.symm
  intro t' _ depth
  rfl

theorem parses_print (hall : all = kw :: (ts ++ semi)) (hk : kw.kind = .kwPrint)
    (he : IsExpr ts e) (hends : Ends ts (semi ++ rest)) (hsemi : Semicolon semi rest) :
  ParsesStmt o all rest (.print (spanOf all) e)
  := by
  intro s hs _ _
  have hkw : s.rest = kw :: (ts ++ (semi ++ rest)) := by simp [hs, hall]
  obtain ⟨id, s', hout, htakes, hreads⟩ := expr_of_isExpr (o := o)
    (s := s.advance kw (ts ++ (semi ++ rest))) he rfl hends
  rw [stmt_print hkw hk, printStmt_out, hout, andThen_some]
  apply closeLine_reads (.cons hkw htakes) hs hall hsemi hall.symm
  intro t' hext depth
  rw [Tree.stmtFormTo, hreads.expr_eq hext]

/-- A statement that starts as an expression does is an expression or an assignment. -/
theorem stmt_startsExpr (hs : s.rest = tok :: rest) (htok : tok.kind.startsExpr) :
  (stmt o s).out = (exprStmt o s).out
  := by
  apply stmt_expr
  rw [ParseState.peek_cons hs]
  cases hk : tok.kind with
  | rbrace => simp
  | kwLet | kwIf | kwWhile | kwFunction | kwReturn | kwPrint =>
      rw [hk] at htok
      cases htok
  | _ => simp [isBoundary]

theorem parses_assign (hall : all = name :: eq :: (ts ++ semi)) (hname : name.kind = .ident)
    (heq : eq.kind = .assign) (he : IsExpr ts e) (hends : Ends ts (semi ++ rest))
    (hsemi : Semicolon semi rest) :
  ParsesStmt o all rest (.assign (spanOf all) name.text name.span e)
  := by
  intro s hs _ _
  have htok : s.rest = name :: eq :: (ts ++ (semi ++ rest)) := by simp [hs, hall]
  have hident : IsExpr [name] (.ident name.span name.text) :=
    (Derives.ident hname).of_le (by decide)
  have hends' : Ends [name] (eq :: (ts ++ (semi ++ rest))) :=
    endsAt_zero.mp (.of_next (congrArg some heq) (by decide) rfl)
  obtain ⟨target, s₁, hout₁, htakes₁, hreads₁⟩ := expr_of_isExpr (o := o) hident htok hends'
  have hs₁ : s₁.rest = eq :: (ts ++ (semi ++ rest)) := htakes₁.rest_eq htok
  obtain ⟨id, s', hout, htakes, hreads⟩ := expr_of_isExpr (o := o)
    (s := s₁.advance eq (ts ++ (semi ++ rest))) he rfl hends
  rw [stmt_startsExpr htok (by rw [hname]; rfl), exprStmt_out, hout₁, andThen_some,
    ParseState.took?_of_eq hs₁ heq]
  dsimp only
  rw [assignTo, hreads₁.ident_iff.mpr rfl]
  dsimp only
  rw [hout, andThen_some, ParseState.peek_cons htok]
  apply closeLine_reads (htakes₁.trans (.cons hs₁ htakes)) hs hall hsemi hall.symm
  intro t' hext depth
  rw [Tree.stmtFormTo, hreads.expr_eq hext]

theorem parses_expr (hall : all = ts ++ semi) (he : IsExpr ts e) (hends : Ends ts (semi ++ rest))
    (hsemi : Semicolon semi rest) :
  ParsesStmt o all rest (.expr (spanOf all) e)
  := by
  intro s hs _ hrest
  obtain ⟨tok, ts', rfl, htok⟩ := he.exists_head
  have hs' : s.rest = tok :: ts' ++ (semi ++ rest) := by simp [hs, hall]
  obtain ⟨id, s', hout, htakes, hreads⟩ := expr_of_isExpr (o := o) he hs' hends
  have hassign : s'.took? .assign = none := by
    apply ParseState.took?_of_next
    rw [htakes.rest_eq hs']
    obtain ⟨tok, rfl, htok⟩ | ⟨rfl, -⟩ := hsemi
    · simp [next, htok]
    · apply hrest.1
  rw [stmt_startsExpr hs' htok, exprStmt_out, hout, andThen_some, hassign,
    ParseState.peek_cons hs']
  apply closeLine_reads htakes hs hall hsemi hall.symm
  intro t' hext depth
  rw [Tree.stmtFormTo, hreads.expr_eq hext]

end Lines

/-! ### Statements with blocks -/

/-- The tokens `ts`, before `rest`, are parsed as the statements `ss`, up to the place where the
list of statements goes on. -/
def ParsesList (o : ParseOptions) (ts rest : List Token) (ss : List Stmt) : Prop :=
  EndsStmt rest → ∀ s stop, stop = .rbrace ∨ stop = .eof → s.isEnough o = false →
    s.rest = ts ++ rest →
    ∃ ids s', (stmtList o stop s).val
        = (ids ++ (stmtList o stop s').val.1, (stmtList o stop s').val.2)
      ∧ Takes s ts s' ∧ List.Forall₂ s'.tree.ReadsStmt ids ss

section Blocks

variable {kw name opener closer lbrace rbrace : Token} {cs qs ts : List Token} {c : Expr}
variable {ps : List Param} {ss : List Stmt}

theorem block_of_parsesList (hopen : lbrace.kind = .lbrace)
    (h : ParsesList o ts (rbrace :: rest) ss) (hclose : rbrace.kind = .rbrace)
    (hs : s.rest = lbrace :: (ts ++ rbrace :: rest)) (henough : s.isEnough o = false) :
  ∃ ids s', (block o s).out = (some ids, s') ∧ Takes s (lbrace :: (ts ++ [rbrace])) s'
    ∧ List.Forall₂ s'.tree.ReadsStmt ids ss
  := by
  have hends : EndsStmt (rbrace :: rest) := by simp [EndsStmt, next, hclose]
  obtain ⟨ids, s', hlist, htakes, hreads⟩ :=
    h hends (s.advance lbrace (ts ++ rbrace :: rest)) .rbrace (.inl rfl) henough rfl
  have hs' := htakes.rest_eq rfl
  have hend : (stmtList o .rbrace s').val = ([], s') :=
    stmtList_end (.inr (ParseState.isAt_of_eq hs' hclose))
  rw [hend, List.append_nil] at hlist
  refine ⟨ids, _, ?_, .cons hs (htakes.trans (.advance hs')), hreads⟩
  rw [block_out, expect_of_eq _ _ hs hopen, andThen_some, hlist, expect_of_eq _ _ hs' hclose,
    andThen_some]

theorem condition_of_isExpr {keyword : Text} (hopen : opener.kind = .lparen) (hc : IsExpr cs c)
    (hclose : closer.kind = .rparen) (hs : s.rest = opener :: (cs ++ closer :: rest)) :
  ∃ id s', (condition o s keyword).out = (some id, s')
    ∧ Takes s (opener :: (cs ++ [closer])) s' ∧ s'.tree.Reads id c
  := by
  have hends : Ends cs (closer :: rest) :=
    endsAt_zero.mp (.of_next (congrArg some hclose) (by decide) rfl)
  obtain ⟨id, s', hout, htakes, hreads⟩ := expr_of_isExpr (o := o)
    (s := s.advance opener (cs ++ closer :: rest)) hc rfl hends
  have hs' := htakes.rest_eq rfl
  refine ⟨id, _, ?_, .cons hs (htakes.trans (.advance hs')), hreads⟩
  rw [condition_out, expect_of_eq _ _ hs hopen, andThen_some, hout, andThen_some,
    expect_of_eq _ _ hs' hclose, andThen_some]

theorem paramList_of_params (h : Params qs ps) (hclose : closer.kind = .rparen)
    (hs : s.rest = qs ++ closer :: rest) :
  ∃ s', (paramList o s).out = (some ps, s') ∧ Takes s qs s'
  := by
  induction h generalizing s with
  | @one tok hk =>
      rw [List.singleton_append] at hs
      have hcomma : (s.advance tok (closer :: rest)).took? .comma = none := by
        apply ParseState.took?_of_ne rfl
        simp [hclose]
      refine ⟨_, ?_, .advance hs⟩
      rw [paramList_out, expect_of_eq _ _ hs hk, andThen_some, hcomma]
  | @more tok comma qs ps hk hcomma _ ih =>
      rw [List.cons_append, List.cons_append] at hs
      obtain ⟨s', hout, htakes⟩ :=
        ih (s := (s.advance tok _).advance comma (qs ++ closer :: rest)) rfl
      refine ⟨s', ?_, .cons hs (.cons rfl htakes)⟩
      rw [paramList_out, expect_of_eq _ _ hs hk, andThen_some, ParseState.took?_of_eq rfl hcomma]
      dsimp only
      rw [hout, andThen_some]

theorem params_of_params (h : qs = [] ∧ ps = [] ∨ Params qs ps) (hclose : closer.kind = .rparen)
    (hs : s.rest = qs ++ closer :: rest) :
  ∃ s', params o s = (some ps, s') ∧ Takes s qs s'
  := by
  obtain ⟨rfl, rfl⟩ | h := h
  · refine ⟨s, ?_, .refl s⟩
    rw [params, if_pos (ParseState.isAt_of_eq hs hclose)]
  · have hat : s.isAt .rparen = false := by
      cases h with
      | one hk | more hk _ _ => apply ParseState.isAt_of_ne hs (by simp [hk])
    rw [params, hat]
    apply paramList_of_params h hclose hs

theorem signature_of_params (hname : name.kind = .ident) (hopen : opener.kind = .lparen)
    (h : qs = [] ∧ ps = [] ∨ Params qs ps) (hclose : closer.kind = .rparen)
    (hs : s.rest = name :: opener :: (qs ++ closer :: rest)) :
  ∃ s', (signature o s).out = (some (name, ps), s')
    ∧ Takes s (name :: opener :: (qs ++ [closer])) s'
  := by
  obtain ⟨s', hout, htakes⟩ := params_of_params (o := o)
    (s := (s.advance name _).advance opener (qs ++ closer :: rest)) h hclose rfl
  have hs' := htakes.rest_eq rfl
  refine ⟨_, ?_, .cons hs (.cons rfl (htakes.trans (.advance hs')))⟩
  rw [signature_out, expect_of_eq _ _ hs hname, andThen_some, expect_of_eq _ _ rfl hopen,
    andThen_some, hout, andThen_some, expect_of_eq _ _ hs' hclose, andThen_some]

/-- A condition and the block after it. -/
theorem condition_block {keyword : Text} (hopen : opener.kind = .lparen) (hc : IsExpr cs c)
    (hclose : closer.kind = .rparen) (hlbrace : lbrace.kind = .lbrace)
    (h : ParsesList o ts (rbrace :: rest) ss) (hrbrace : rbrace.kind = .rbrace)
    (hs : s.rest = opener :: (cs ++ closer :: lbrace :: (ts ++ rbrace :: rest)))
    (henough : s.isEnough o = false) :
  ∃ id ids s₁ s', (condition o s keyword).out = (some id, s₁)
    ∧ (block o s₁).out = (some ids, s')
    ∧ Takes s (opener :: (cs ++ closer :: lbrace :: (ts ++ [rbrace]))) s'
    ∧ s'.tree.Reads id c ∧ List.Forall₂ s'.tree.ReadsStmt ids ss
  := by
  obtain ⟨id, s₁, hout, htakes, hreads⟩ := condition_of_isExpr (o := o) hopen hc hclose hs
  obtain ⟨ids, s', hout', htakes', hreads'⟩ :=
    block_of_parsesList hlbrace h hrbrace (htakes.rest_eq (by simp [hs])) (htakes.isEnough henough)
  refine ⟨id, ids, s₁, s', hout, hout', ?_, hreads.mono htakes'.tree, hreads'⟩
  simpa using htakes.trans htakes'

theorem parses_while
    (hall : all = kw :: opener :: (cs ++ closer :: lbrace :: (ts ++ [rbrace])))
    (hk : kw.kind = .kwWhile) (hopen : opener.kind = .lparen) (hc : IsExpr cs c)
    (hclose : closer.kind = .rparen) (hlbrace : lbrace.kind = .lbrace)
    (h : ParsesList o ts (rbrace :: rest) ss) (hrbrace : rbrace.kind = .rbrace) :
  ParsesStmt o all rest (.while (spanOf all) c ss)
  := by
  intro s hs henough _
  have hkw : s.rest = kw :: opener :: (cs ++ closer :: lbrace :: (ts ++ rbrace :: rest)) := by
    simp [hs, hall]
  obtain ⟨id, ids, s₁, s', hcond, hblock, htakes, hreads, hreads'⟩ :=
    condition_block (s := s.advance kw _) hopen hc hclose hlbrace h hrbrace rfl henough
  rw [stmt_while hkw hk, hcond, andThen_some, hblock, andThen_some]
  apply close_reads (hall ▸ Takes.cons hkw htakes) hall
  intro t' hext depth hdepth
  rw [Tree.stmtFormTo, hreads.expr_eq hext, Tree.ReadsStmt.map_stmtTo_eq hreads' hext hdepth]

theorem parses_ifThen
    (hall : all = kw :: opener :: (cs ++ closer :: lbrace :: (ts ++ [rbrace])))
    (hk : kw.kind = .kwIf) (hopen : opener.kind = .lparen) (hc : IsExpr cs c)
    (hclose : closer.kind = .rparen) (hlbrace : lbrace.kind = .lbrace)
    (h : ParsesList o ts (rbrace :: rest) ss) (hrbrace : rbrace.kind = .rbrace) :
  ParsesStmt o all rest (.ifElse (spanOf all) c ss [] false)
  := by
  intro s hs henough hrest
  have hkw : s.rest = kw :: opener :: (cs ++ closer :: lbrace :: (ts ++ rbrace :: rest)) := by
    simp [hs, hall]
  obtain ⟨id, ids, s₁, s', hcond, hblock, htakes, hreads, hreads'⟩ :=
    condition_block (s := s.advance kw _) hopen hc hclose hlbrace h hrbrace rfl henough
  have htakes := hall ▸ Takes.cons hkw htakes
  have helse : s'.took? .kwElse = none := by
    apply ParseState.took?_of_next
    rw [htakes.rest_eq hs]
    apply hrest.2
  rw [stmt_if hkw hk, hcond, andThen_some, hblock, andThen_some, helse]
  apply close_reads htakes hall
  intro t' hext depth hdepth
  rw [Tree.stmtFormTo, hreads.expr_eq hext, Tree.ReadsStmt.map_stmtTo_eq hreads' hext hdepth]
  rfl

theorem parses_ifElse {kw' lbrace' rbrace' : Token} {ts' : List Token} {ss' : List Stmt}
    (hall : all = kw :: opener :: (cs ++ closer :: lbrace :: (ts ++ rbrace :: kw' :: lbrace' ::
      (ts' ++ [rbrace']))))
    (hk : kw.kind = .kwIf) (hopen : opener.kind = .lparen) (hc : IsExpr cs c)
    (hclose : closer.kind = .rparen) (hlbrace : lbrace.kind = .lbrace)
    (h : ParsesList o ts (rbrace :: kw' :: lbrace' :: (ts' ++ rbrace' :: rest)) ss)
    (hrbrace : rbrace.kind = .rbrace) (hk' : kw'.kind = .kwElse)
    (hlbrace' : lbrace'.kind = .lbrace) (h' : ParsesList o ts' (rbrace' :: rest) ss')
    (hrbrace' : rbrace'.kind = .rbrace) :
  ParsesStmt o all rest (.ifElse (spanOf all) c ss ss' true)
  := by
  intro s hs henough _
  have hkw : s.rest = kw :: opener :: (cs ++ closer :: lbrace :: (ts ++ rbrace :: kw' ::
      lbrace' :: (ts' ++ rbrace' :: rest))) := by
    simp [hs, hall]
  obtain ⟨id, ids, s₁, s₂, hcond, hblock, htakes, hreads, hreads'⟩ :=
    condition_block (s := s.advance kw _) hopen hc hclose hlbrace h hrbrace rfl henough
  have htakes := Takes.cons hkw htakes
  have hs₂ : s₂.rest = kw' :: lbrace' :: (ts' ++ rbrace' :: rest) :=
    htakes.rest_eq (by simp [hkw])
  obtain ⟨ids', s', hblock', htakes', hreads''⟩ := block_of_parsesList
    (s := s₂.advance kw' (lbrace' :: (ts' ++ rbrace' :: rest))) hlbrace' h' hrbrace' rfl
    (htakes.isEnough henough)
  rw [stmt_if hkw hk, hcond, andThen_some, hblock, andThen_some,
    ParseState.took?_of_eq hs₂ hk']
  dsimp only
  rw [hblock', andThen_some]
  have hall' : Takes s all s' := by simpa [hall] using htakes.trans (.cons hs₂ htakes')
  apply close_reads hall' hall
  intro t' hext depth hdepth
  rw [Tree.stmtFormTo, hreads.expr_eq (htakes'.tree.trans hext),
    Tree.ReadsStmt.map_stmtTo_eq hreads' (htakes'.tree.trans hext)
      (Nat.le_trans htakes'.tree.size_stmts_le hdepth),
    Tree.ReadsStmt.map_stmtTo_eq hreads'' hext hdepth]

theorem parses_function
    (hall : all = kw :: name :: opener :: (qs ++ closer :: lbrace :: (ts ++ [rbrace])))
    (hk : kw.kind = .kwFunction) (hname : name.kind = .ident) (hopen : opener.kind = .lparen)
    (hps : qs = [] ∧ ps = [] ∨ Params qs ps) (hclose : closer.kind = .rparen)
    (hlbrace : lbrace.kind = .lbrace) (h : ParsesList o ts (rbrace :: rest) ss)
    (hrbrace : rbrace.kind = .rbrace) :
  ParsesStmt o all rest (.function (spanOf all) name.text name.span ps ss)
  := by
  intro s hs henough _
  have hkw : s.rest
      = kw :: name :: opener :: (qs ++ closer :: lbrace :: (ts ++ rbrace :: rest)) := by
    simp [hs, hall]
  obtain ⟨s₁, hsig, htakes⟩ := signature_of_params (o := o) (s := s.advance kw _)
    hname hopen hps hclose rfl
  have htakes := Takes.cons hkw htakes
  obtain ⟨ids, s', hblock, htakes', hreads⟩ :=
    block_of_parsesList hlbrace h hrbrace (htakes.rest_eq (by simp [hkw])) (htakes.isEnough henough)
  rw [stmt_function hkw hk, hsig, andThen_some, hblock, andThen_some]
  have hall' : Takes s all s' := by simpa [hall] using htakes.trans htakes'
  apply close_reads hall' hall
  intro t' hext depth hdepth
  rw [Tree.stmtFormTo, Tree.ReadsStmt.map_stmtTo_eq hreads hext hdepth]

end Blocks

/-! ### Lists of statements -/

theorem parsesList_nil :
  ParsesList o [] rest []
  := by
  intro _ s stop _ _ _
  exact ⟨[], s, rfl, .refl s, .nil⟩

theorem ParsesList.append {ts ts' : List Token} {ss ss' : List Stmt}
    (h : ParsesList o ts (ts' ++ rest) ss) (h' : ParsesList o ts' rest ss')
    (hss : Statements ts' rest ss') :
  ParsesList o (ts ++ ts') rest (ss ++ ss')
  := by
  intro hrest s stop hstop henough hs
  rw [List.append_assoc] at hs
  obtain ⟨ids, s₁, hlist, htakes, hreads⟩ := h (hrest.append hss) s stop hstop henough hs
  obtain ⟨ids', s', hlist', htakes', hreads'⟩ :=
    h' hrest s₁ stop hstop (htakes.isEnough henough) (htakes.rest_eq hs)
  refine ⟨ids ++ ids', s', ?_, htakes.trans htakes', ?_⟩
  · rw [hlist, hlist', List.append_assoc]
  · apply List.rel_append (hreads.imp fun _ _ h => h.mono htakes'.tree) hreads'

/-- A list of one statement. -/
theorem ParsesStmt.list {st : Stmt} (hcancel : o.cancelled = false)
    (h : ParsesStmt o all rest st) (hst : Statements all rest [st]) :
  ParsesList o all rest [st]
  := by
  intro hrest s stop hstop henough hs
  obtain ⟨⟨⟩, ⟨⟩⟩ | ⟨k, hnext, hk⟩ := hst.head
  cases all with
  | nil => cases hnext
  | cons tok ts =>
      cases hnext
      obtain ⟨id, s', hout, htakes, hreads⟩ := h s hs henough hrest
      refine ⟨[id], s', ?_, htakes, .cons hreads .nil⟩
      apply stmtList_some henough hcancel (by simp [hs]) _ hout
      apply ParseState.isAt_of_ne hs
      obtain rfl | rfl := hstop
      · apply hk.ne.2.2.1
      · apply hk.ne.2.2.2

/-- All statements that the grammar derives are parsed. -/
theorem parsesList_of_statements {ts : List Token} {ss : List Stmt}
    (hcancel : o.cancelled = false) (h : Statements ts rest ss) :
  ParsesList o ts rest ss
  := by
  induction h with
  | nil => apply parsesList_nil
  | cons _ hss ih ih' => apply ih.append ih' hss
  | letVar hall hk hname heq he hends hsemi =>
      apply (parses_letVar hall hk hname heq he hends hsemi).list hcancel
      apply Statements.letVar hall hk hname heq he hends hsemi
  | assign hall hname heq he hends hsemi =>
      apply (parses_assign hall hname heq he hends hsemi).list hcancel
      apply Statements.assign hall hname heq he hends hsemi
  | ifThen hall hk hopen hc hclose hlbrace h hrbrace ih =>
      apply (parses_ifThen hall hk hopen hc hclose hlbrace ih hrbrace).list hcancel
      apply Statements.ifThen hall hk hopen hc hclose hlbrace h hrbrace
  | ifElse hall hk hopen hc hclose hlbrace h hrbrace hk' hlbrace' h' hrbrace' ih ih' =>
      apply ParsesStmt.list hcancel
      · apply parses_ifElse hall hk hopen hc hclose hlbrace ih hrbrace hk' hlbrace' ih' hrbrace'
      · apply Statements.ifElse hall hk hopen hc hclose hlbrace h hrbrace hk' hlbrace' h' hrbrace'
  | «while» hall hk hopen hc hclose hlbrace h hrbrace ih =>
      apply (parses_while hall hk hopen hc hclose hlbrace ih hrbrace).list hcancel
      apply Statements.while hall hk hopen hc hclose hlbrace h hrbrace
  | function hall hk hname hopen hps hclose hlbrace h hrbrace ih =>
      apply (parses_function hall hk hname hopen hps hclose hlbrace ih hrbrace).list hcancel
      apply Statements.function hall hk hname hopen hps hclose hlbrace h hrbrace
  | ret hall hk hstart hsemi =>
      apply (parses_ret hall hk hstart hsemi).list hcancel
      apply Statements.ret hall hk hstart hsemi
  | retValue hall hk he hends hsemi =>
      apply (parses_retValue hall hk he hends hsemi).list hcancel
      apply Statements.retValue hall hk he hends hsemi
  | print hall hk he hends hsemi =>
      apply (parses_print hall hk he hends hsemi).list hcancel
      apply Statements.print hall hk he hends hsemi
  | expr hall he hends hsemi =>
      apply (parses_expr hall he hends hsemi).list hcancel
      apply Statements.expr hall he hends hsemi

/-- A program that the grammar derives is parsed without an error, up to its end. -/
theorem stmtList_of_isProgram {ts : List Token} {ss : List Stmt}
    (henough : s.isEnough o = false) (hcancel : o.cancelled = false) (h : IsProgram ts ss)
    (hs : s.rest = ts) :
  ∃ ids s', (stmtList o .eof s).val = (ids, s') ∧ Takes s ts s'
    ∧ List.Forall₂ s'.tree.ReadsStmt ids ss
  := by
  have hends : EndsStmt [] := by simp [EndsStmt, next]
  have hs : s.rest = ts ++ [] := by rw [hs, List.append_nil]
  obtain ⟨ids, s', hlist, htakes, hreads⟩ :=
    parsesList_of_statements hcancel h hends s .eof (.inr rfl) henough hs
  have hend : (stmtList o .eof s').val = ([], s') := stmtList_end (.inl (htakes.rest_eq hs))
  rw [hend, List.append_nil] at hlist
  exact ⟨ids, s', hlist, htakes, hreads⟩

end Parser

end ThreeAddress
