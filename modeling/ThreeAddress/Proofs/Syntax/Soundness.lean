import ThreeAddress.Proofs.Syntax.Completeness
import ThreeAddress.Proofs.Syntax.Derivation

/-!
# Programs that are parsed without an error are derived by the grammar

Every statement that is parsed without an error is one of the grammar before the tokens that are
left, and so is a list of statements up to its end.  A name before `=` is told from another
expression by its node, which is read as a name only if it was parsed from a single token.
-/

namespace ThreeAddress

open Outcome Grammar

namespace Parser

variable {o : ParseOptions} {s : ParseState} {n : Nat} {rest : List Token}

/-! ### Lines -/

/-- An expression and its optional semicolon. -/
def Line (ts rest : List Token) : Prop :=
  ∃ us semi e, ts = us ++ semi ∧ IsExpr us e ∧ Ends us (semi ++ rest) ∧ Semicolon semi rest

/-- One statement. -/
def Single (ts rest : List Token) : Prop := ∃ st, Statements ts rest [st]

theorem close_sound (start : Span) (form : StmtForm) :
  Sound o s Nothing (close s start form)
  := ⟨.of_eq rfl rfl rfl, fun _ _ => ⟨rfl, [], rfl, rfl⟩⟩

theorem closeLine_sound (start : Span) (form : StmtForm) :
  Sound o s Semicolon (closeLine s start form)
  := by
  rw [closeLine, ParseState.past]
  obtain ⟨htook, hnext⟩ | ⟨tok, rest, hs, hk, htook⟩ := took?_cases s .semicolon
  · rw [htook]
    have hclose : Sound o s Nothing (close s start form) := close_sound ..
    refine ⟨hclose.later, fun _ _ => ⟨rfl, [], rfl, .inr ⟨rfl, hnext⟩⟩⟩
  · rw [htook]
    apply (Sound.cons hs hk (close_sound start form)).mono
    rintro ts rest ⟨_, _, rfl, ⟨tok, rfl, hk⟩, rfl⟩
    exact .inl ⟨tok, rfl, hk⟩

theorem line_sound (hvalid : Valid s.rest) (start : Span) (form : ExprId → StmtForm) :
  Sound o s Line ((expr o s).out.andThen fun id s' => closeLine s' start (form id))
  := by
  apply ((expr_sound hvalid).andThen fun id s' _ _ => closeLine_sound start (form id)).mono
  rintro ts rest ⟨us, semi, rfl, ⟨⟨e, he⟩, hends⟩, hsemi⟩
  exact ⟨us, semi, e, rfl, he, endsAt_zero.mp hends, hsemi⟩

theorem letStmt_sound (hvalid : Valid s.rest) (start : Span) :
  Sound o s (Then (One .ident) (Then (One .assign) Line)) (letStmt o s start).out
  := by
  rw [letStmt_out]
  apply (expect_sound ..).andThen
  intro name s' _ hlater
  apply (expect_sound ..).andThen
  intro eq s₂ _ hlater'
  apply line_sound ((hvalid.later hlater).later hlater')

theorem returnStmt_sound {s₀ : ParseState} (hvalid : Valid s.rest) (start : Span)
    (h : s.left < s₀.left) :
  Sound o s (fun ts rest => Line ts rest
      ∨ Semicolon ts rest ∧ ∀ k, next (ts ++ rest) = some k → ¬ StartsExpr k)
    (returnStmt o s start s₀ h).out
  := by
  cases hstart : s.peek.kind.startsExpr with
  | true =>
      rw [returnStmt_value start h hstart]
      apply (line_sound hvalid start .ret).mono
      intro ts rest
      apply Or.inl
  | false =>
      rw [returnStmt_bare start h hstart]
      have hline : Sound o s Semicolon (closeLine s start (.ret 0)) := closeLine_sound ..
      use hline.later
      intro herrors henough
      obtain ⟨hsome, ts, hts, hsemi⟩ := hline.taken herrors henough
      refine ⟨hsome, ts, hts, .inr ⟨hsemi, ?_⟩⟩
      intro k hnext
      rw [← hts] at hnext
      rw [startsExpr_iff, ← ParseState.peek_of_next hnext, hstart]
      simp

theorem printStmt_sound (hvalid : Valid s.rest) (start : Span) :
  Sound o s Line (printStmt o s start).out
  := by
  rw [printStmt_out]
  apply line_sound hvalid

theorem exprStmt_sound (hvalid : Valid s.rest) :
  Sound o s Single (exprStmt o s).out
  := by
  rw [exprStmt_out]
  apply Sound.bind (expr_sound hvalid)
    (C := fun id s' ts rest => Semicolon ts rest
      ∨ (∃ span name, s'.tree.expr? id = some ⟨span, .ident name⟩)
        ∧ Then (One .assign) Line ts rest)
  · intro id s' _ hlater
    obtain ⟨htook, -⟩ | ⟨eq, rest, hs', heq, htook⟩ := took?_cases s' .assign
    · rw [htook]
      apply (closeLine_sound ..).mono
      intro ts rest
      apply Or.inl
    · rw [htook]
      dsimp only [assignTo]
      split
      · next span name hnode =>
        have hvalid' := (hvalid.later hlater).advance hs'
        apply (Sound.cons hs' heq (line_sound hvalid' ..)).mono
        intro ts rest h
        exact .inr ⟨⟨span, name, hnode⟩, h⟩
      · apply Sound.report
  · rintro id s' ts ts' rest hout hs hs' ⟨⟨e, he⟩, hends⟩ (hsemi | ⟨⟨span, name, hnode⟩, hline⟩)
    · rw [hs'] at hends
      exact ⟨_, .expr rfl he (endsAt_zero.mp hends) hsemi⟩
    · obtain ⟨id', s₂, hout', -, hreads⟩ := expr_of_isExpr (o := o) he hs (endsAt_zero.mp hends)
      rw [hout] at hout'
      cases hout'
      rw [hreads.ident_iff] at hnode
      obtain ⟨tok, rfl, hk⟩ := he.eq_singleton rfl (congrArg (fun e => [e]) hnode)
      obtain ⟨_, _, rfl, ⟨eq, rfl, heq⟩, us, semi, e', rfl, he', hends', hsemi⟩ := hline
      have hall : [tok] ++ ([eq] ++ (us ++ semi)) = tok :: eq :: (us ++ semi) := rfl
      exact ⟨_, .assign hall hk heq he' hends' hsemi⟩

/-! ### Statements with blocks -/

/-- None or more parameters. -/
def ParamsOrNone (ts _rest : List Token) : Prop := ∃ ps, ts = [] ∧ ps = [] ∨ Params ts ps

/-- The name and parameters of a function. -/
def Signature (ts _rest : List Token) : Prop :=
  ∃ name opener us closer ps, ts = name :: opener :: (us ++ [closer]) ∧ name.kind = .ident
    ∧ opener.kind = .lparen ∧ (us = [] ∧ ps = [] ∨ Params us ps) ∧ closer.kind = .rparen

/-- A condition in parentheses. -/
def Condition (ts _rest : List Token) : Prop :=
  ∃ opener us closer c, ts = opener :: (us ++ [closer]) ∧ opener.kind = .lparen ∧ IsExpr us c
    ∧ closer.kind = .rparen

/-- Statements up to a token of kind `stop` or the end. -/
def StatementsTo (stop : TokenKind) (ts rest : List Token) : Prop :=
  (∃ ss, Statements ts rest ss) ∧ (rest = [] ∨ next rest = some stop)

/-- Statements between braces. -/
def Block (ts rest : List Token) : Prop :=
  ∃ lbrace us rbrace ss, ts = lbrace :: (us ++ [rbrace]) ∧ lbrace.kind = .lbrace
    ∧ Statements us (rbrace :: rest) ss ∧ rbrace.kind = .rbrace

/-- The outcome of parsing statements, which always succeeds. -/
def listOut (o : ParseOptions) (stop : TokenKind) (s : ParseState) : Outcome (List StmtId) :=
  (some (stmtList o stop s).val.1, (stmtList o stop s).val.2)

/-- Lists of statements are sound with fewer than the given number of tokens left. -/
def ListsBelow (o : ParseOptions) (left : Nat) : Prop :=
  ∀ (s : ParseState) (stop : TokenKind), s.left < left → Valid s.rest →
    Sound o s (StatementsTo stop) (listOut o stop s)

theorem condition_sound (hvalid : Valid s.rest) (keyword : Text) :
  Sound o s Condition (condition o s keyword).out
  := by
  rw [condition_out]
  apply (Sound.andThen (R := Then (Operand 0) (One .rparen)) (expect_sound ..) _).mono
  · rintro ts rest ⟨_, _, rfl, ⟨opener, rfl, hopen⟩, us, _, rfl, ⟨⟨c, hc⟩, -⟩, closer, rfl, hclose⟩
    exact ⟨opener, us, closer, c, rfl, hopen, hc, hclose⟩
  · intro opener s' _ hlater
    apply (expr_sound (hvalid.later hlater)).andThen
    intro cond s₂ _ _
    apply (expect_sound ..).ending fun closer s₃ _ => .success _ rfl

theorem paramList_sound (s : ParseState) :
  Sound o s (fun ts _ => ∃ ps, Params ts ps) (paramList o s).out
  := by
  induction hk : s.left using Nat.strongRecOn generalizing s with
  | ind k ih =>
      rw [paramList_out]
      apply (Sound.andThen (R := fun ts rest => ts = []
        ∨ Then (One .comma) (fun ts _ => ∃ ps, Params ts ps) ts rest) (expect_sound ..) _).mono
      · rintro ts rest ⟨_, _, rfl, ⟨tok, rfl, htok⟩,
          rfl | ⟨_, us, rfl, ⟨comma, rfl, hcomma⟩, ps, hps⟩⟩
        · exact ⟨_, .one htok⟩
        · exact ⟨_, .more htok hcomma hps⟩
      · intro name s' _ hlater
        obtain ⟨htook, -⟩ | ⟨comma, rest, hs', hcomma, htook⟩ := took?_cases s' .comma
        · rw [htook]
          apply Sound.success _ (.inl rfl)
        · rw [htook]
          have hlt := ParseState.left_advance_lt hs'
          have hle := hlater.left_le
          have hparams := ih _ (by omega) (s'.advance comma rest) rfl
          apply (Sound.cons hs' hcomma (hparams.ending fun ps s₃ _ => .success _ rfl)).mono
          intro ts rest
          apply Or.inr

theorem params_sound (s : ParseState) :
  Sound o s ParamsOrNone (params o s)
  := by
  rw [params]
  split
  · apply Sound.success
    exact ⟨[], .inl ⟨rfl, rfl⟩⟩
  · apply (paramList_sound s).mono
    rintro ts rest ⟨ps, hps⟩
    exact ⟨ps, .inr hps⟩

theorem signature_sound (s : ParseState) :
  Sound o s Signature (signature o s).out
  := by
  rw [signature_out]
  apply (Sound.andThen (R := Then (One .lparen) (Then ParamsOrNone (One .rparen)))
    (expect_sound ..) _).mono
  · rintro ts rest ⟨_, _, rfl, ⟨name, rfl, hname⟩, _, _, rfl, ⟨opener, rfl, hopen⟩, us, _, rfl,
      ⟨ps, hps⟩, closer, rfl, hclose⟩
    exact ⟨name, opener, us, closer, ps, rfl, hname, hopen, hps, hclose⟩
  · intro name s' _ _
    apply (expect_sound ..).andThen
    intro opener s₂ _ _
    apply (params_sound s₂).andThen
    intro ps s₃ _ _
    apply (expect_sound ..).ending fun closer s₄ _ => .success _ rfl

theorem block_sound {left : Nat} (ih : ListsBelow o left) (hleft : s.left ≤ left)
    (hvalid : Valid s.rest) :
  Sound o s Block (block o s).out
  := by
  rw [block_out]
  apply (Sound.andThen (R := Then (StatementsTo .rbrace) (One .rbrace)) (expect_sound ..) _).mono
  · rintro ts rest ⟨_, _, rfl, ⟨lbrace, rfl, hlbrace⟩, us, _, rfl, ⟨⟨ss, hss⟩, -⟩, rbrace, rfl,
      hrbrace⟩
    exact ⟨lbrace, us, rbrace, ss, rfl, hlbrace, hss, hrbrace⟩
  · intro opener s' hout hlater
    have hlt := Parsed.lt_of_out hout
    have hlist := ih s' .rbrace (by omega) (hvalid.later hlater)
    apply hlist.andThen (f := fun ids s₂ =>
      (expect o s₂ .rbrace .blockClose (some opener.span)).out.andThen fun _ s₃ => (some ids, s₃))
    intro ids s₂ _ _
    apply (expect_sound ..).ending fun closer s₃ _ => .success _ rfl

theorem if_sound {tok : Token} (ih : ListsBelow o s.left) (hvalid : Valid s.rest)
    (hs : s.rest = tok :: rest) (hk : tok.kind = .kwIf) :
  Sound o s Single (stmt o s).out
  := by
  have hlt := ParseState.left_advance_lt hs
  have hvalid := hvalid.advance hs
  rw [stmt_if hs hk]
  apply (Sound.cons hs hk ((condition_sound hvalid "if").andThen (R := Then Block fun ts rest =>
    ts = [] ∨ Then (One .kwElse) Block ts rest) _)).mono
  · rintro ts rest ⟨_, _, rfl, ⟨kw, rfl, hk⟩, _, _, rfl,
      ⟨opener, cs, closer, c, rfl, hopen, hc, hclose⟩, _, _, rfl,
      ⟨lbrace, us, rbrace, ss, rfl, hlbrace, hss, hrbrace⟩,
      rfl | ⟨_, _, rfl, ⟨kw', rfl, hk'⟩, lbrace', vs, rbrace', ss', rfl, hlbrace', hss', hrbrace'⟩⟩
    · exact ⟨_, .ifThen (by simp) hk hopen hc hclose hlbrace hss hrbrace⟩
    · rw [List.append_assoc, List.singleton_append, List.cons_append, List.append_assoc,
        List.singleton_append] at hss
      exact ⟨_, .ifElse (by simp) hk hopen hc hclose hlbrace hss hrbrace hk' hlbrace' hss' hrbrace'⟩
  · intro cond s₂ _ hlater
    have hle := hlater.left_le
    have hvalid := hvalid.later hlater
    apply (block_sound ih (by omega) hvalid).andThen
    intro thenBody s₃ _ hlater'
    have hle' := hlater'.left_le
    obtain ⟨htook, -⟩ | ⟨kw, rest, hs₃, hk, htook⟩ := took?_cases s₃ .kwElse
    · rw [htook]
      apply (close_sound ..).mono
      intro ts rest
      apply Or.inl
    · rw [htook]
      have hlt₃ := ParseState.left_advance_lt hs₃
      have hvalid := (hvalid.later hlater').advance hs₃
      apply (Sound.cons hs₃ hk ((block_sound ih (by omega) hvalid).ending
        fun elseBody s₅ _ => close_sound ..)).mono
      intro ts rest
      apply Or.inr

theorem while_sound {tok : Token} (ih : ListsBelow o s.left) (hvalid : Valid s.rest)
    (hs : s.rest = tok :: rest) (hk : tok.kind = .kwWhile) :
  Sound o s Single (stmt o s).out
  := by
  have hlt := ParseState.left_advance_lt hs
  have hvalid := hvalid.advance hs
  rw [stmt_while hs hk]
  apply (Sound.cons hs hk ((condition_sound hvalid "while").andThen (R := Block) _)).mono
  · rintro ts rest ⟨_, _, rfl, ⟨kw, rfl, hk⟩, _, _, rfl,
      ⟨opener, cs, closer, c, rfl, hopen, hc, hclose⟩,
      lbrace, us, rbrace, ss, rfl, hlbrace, hss, hrbrace⟩
    exact ⟨_, .while (by simp) hk hopen hc hclose hlbrace hss hrbrace⟩
  · intro cond s₂ _ hlater
    have hle := hlater.left_le
    apply (block_sound ih (by omega) (hvalid.later hlater)).ending
      fun body s₃ _ => close_sound ..

theorem function_sound {tok : Token} (ih : ListsBelow o s.left) (hvalid : Valid s.rest)
    (hs : s.rest = tok :: rest) (hk : tok.kind = .kwFunction) :
  Sound o s Single (stmt o s).out
  := by
  have hlt := ParseState.left_advance_lt hs
  have hvalid := hvalid.advance hs
  rw [stmt_function hs hk]
  apply (Sound.cons hs hk ((signature_sound _).andThen (R := Block) _)).mono
  · rintro ts rest ⟨_, _, rfl, ⟨kw, rfl, hk⟩, _, _, rfl,
      ⟨name, opener, qs, closer, ps, rfl, hname, hopen, hps, hclose⟩,
      lbrace, us, rbrace, ss, rfl, hlbrace, hss, hrbrace⟩
    exact ⟨_, .function (by simp) hk hname hopen hps hclose hlbrace hss hrbrace⟩
  · intro sig s₂ _ hlater
    have hle := hlater.left_le
    apply (block_sound ih (by omega) (hvalid.later hlater)).ending
      fun body s₃ _ => close_sound ..

theorem stmt_sound {tok : Token} (ih : ListsBelow o s.left) (hvalid : Valid s.rest)
    (hs : s.rest = tok :: rest) :
  Sound o s Single (stmt o s).out
  := by
  have hvalid' := hvalid.advance hs
  cases hk : tok.kind with
  | kwLet =>
      rw [stmt_let hs hk]
      apply (Sound.cons hs hk (letStmt_sound hvalid' tok.span)).mono
      rintro ts rest ⟨_, _, rfl, ⟨kw, rfl, hk⟩, _, _, rfl, ⟨name, rfl, hname⟩, _, _, rfl,
        ⟨eq, rfl, heq⟩, us, semi, e, rfl, he, hends, hsemi⟩
      have hall : [kw] ++ ([name] ++ ([eq] ++ (us ++ semi))) = kw :: name :: eq :: (us ++ semi) :=
        rfl
      exact ⟨_, .letVar hall hk hname heq he hends hsemi⟩
  | kwIf => apply if_sound ih hvalid hs hk
  | kwWhile => apply while_sound ih hvalid hs hk
  | kwFunction => apply function_sound ih hvalid hs hk
  | kwReturn =>
      rw [stmt_return hs hk]
      apply (Sound.cons hs hk (returnStmt_sound hvalid' tok.span _)).mono
      rintro ts rest ⟨_, _, rfl, ⟨kw, rfl, hk⟩,
        ⟨us, semi, e, rfl, he, hends, hsemi⟩ | ⟨hsemi, hbare⟩⟩
      · have hall : [kw] ++ (us ++ semi) = kw :: (us ++ semi) := rfl
        exact ⟨_, .retValue hall hk he hends hsemi⟩
      · exact ⟨_, .ret List.singleton_append hk hbare hsemi⟩
  | kwPrint =>
      rw [stmt_print hs hk]
      apply (Sound.cons hs hk (printStmt_sound hvalid' tok.span)).mono
      rintro ts rest ⟨_, _, rfl, ⟨kw, rfl, hk⟩, us, semi, e, rfl, he, hends, hsemi⟩
      have hall : [kw] ++ (us ++ semi) = kw :: (us ++ semi) := rfl
      exact ⟨_, .print hall hk he hends hsemi⟩
  | _ =>
      rw [stmt_expr]
      · apply exprStmt_sound hvalid
      · rw [ParseState.peek_cons hs, hk]
        simp [isBoundary]

/-! ### Lists of statements -/

theorem list_sound {stop : TokenKind} (hcancel : o.cancelled = false)
    (ih : ListsBelow o s.left) (hvalid : Valid s.rest) :
  Sound o s (StatementsTo stop) (listOut o stop s)
  := by
  cases hs : s.rest with
  | nil =>
      rw [listOut, stmtList_end (.inl hs)]
      apply Sound.success
      exact ⟨⟨[], .nil⟩, .inl hs⟩
  | cons tok rest =>
      by_cases hstop : tok.kind = stop
      · rw [listOut, stmtList_end (.inr (ParseState.isAt_of_eq hs hstop))]
        apply Sound.success
        refine ⟨⟨[], .nil⟩, .inr ?_⟩
        rw [hs, ← hstop]
        rfl
      · have hne : s.rest ≠ [] := by simp [hs]
        have hat := ParseState.isAt_of_ne hs hstop
        cases henough : s.isEnough o with
        | true =>
            rw [listOut, stmtList_enough henough hne hat]
            use later_skipAll s
            intro _ hnot
            rw [henough] at hnot
            cases hnot
        | false =>
            have hstmt := stmt_sound ih hvalid hs
            rcases hout : (stmt o s).out with ⟨_ | id, s'⟩
            · rw [hout] at hstmt
              obtain ⟨s₂, hlt, hlater, hlist⟩ := stmtList_none henough hcancel hne hat hout
              have hlater' := hstmt.later.trans hlater
              have hrest := ih s₂ stop hlt (hvalid.later hlater')
              rw [listOut, hlist]
              use hlater'.trans hrest.later
              intro herrors _
              have := hstmt.lt_of_none henough
              have := hlater.errors
              have := hrest.later.errors
              dsimp only [listOut] at *
              omega
            · have hlist := stmtList_some henough hcancel hne hat hout
              have hlt := Parsed.lt_of_out hout
              rw [hout] at hstmt
              have hrest := ih s' stop hlt (hvalid.later hstmt.later)
              rw [listOut, hlist]
              apply (hstmt.andThen (f := fun id s' => (listOut o stop s').andThen fun ids s₂ =>
                (some (id :: ids), s₂)) (R := StatementsTo stop) _).mono
              · rintro ts rest ⟨us, vs, rfl, ⟨st, hst⟩, ⟨ss, hss⟩, hend⟩
                exact ⟨⟨st :: ss, .cons hst hss⟩, hend⟩
              · rintro id s' ⟨⟩ _
                apply hrest.ending fun ids s₂ _ => .success _ rfl

theorem lists_below (hcancel : o.cancelled = false) (left : Nat) :
  ListsBelow o left
  := by
  induction left with
  | zero =>
      intro s stop hs
      cases hs
  | succ left ih =>
      intro s stop hs hvalid
      have ih : ListsBelow o s.left := fun s' stop hs' => ih s' stop (by omega)
      apply list_sound hcancel ih hvalid

/-- Tokens that are parsed without an error, below the limit, are a program. -/
theorem isProgram_of_errors_eq (henough : s.isEnough o = false) (hcancel : o.cancelled = false)
    (hvalid : Valid s.rest) (herrors : (stmtList o .eof s).val.2.errors = s.errors) :
  ∃ ss, IsProgram s.rest ss
  := by
  have hsound := lists_below hcancel (s.left + 1) s .eof (Nat.lt_succ_self _) hvalid
  obtain ⟨-, ts, hts, ⟨ss, hss⟩, hend⟩ := hsound.taken herrors henough
  cases hrest : (listOut o .eof s).2.rest with
  | nil =>
      rw [hrest] at hts hss
      rw [hts, List.append_nil]
      exact ⟨ss, hss⟩
  | cons tok rest =>
      rw [hrest] at hts hend
      have hmem : tok ∈ s.rest := by simp [hts]
      obtain hend | hend := hend
      · cases hend
      · cases (hvalid tok hmem).2 (Option.some.inj hend)

/-- Tokens that are parsed without an error are a program. -/
theorem isProgram_of_stmtList (hmax : o.maxErrors = 0) (hcancel : o.cancelled = false)
    (hvalid : Valid s.rest) (herrors : (stmtList o .eof s).val.2.errors = s.errors) :
  ∃ ss, IsProgram s.rest ss
  := isProgram_of_errors_eq (ParseState.isEnough_of_unlimited hmax s) hcancel hvalid herrors

end Parser

end ThreeAddress
