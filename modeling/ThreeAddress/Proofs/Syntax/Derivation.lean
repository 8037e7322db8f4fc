import ThreeAddress.Proofs.Syntax.Climbing

/-!
# Expressions that are parsed are derived by the grammar

`Sound o s Q r` says what a parser that starts in `s` has done when it ends with the outcome `r`: it
has only taken tokens and counted errors, and if it has counted none then it has succeeded, and the
tokens that it has taken satisfy `Q` before those that are left.  A parser that continues another
one takes the tokens of both, and so every parser has a `Q` composed like its equation.
-/

namespace ThreeAddress

open Outcome Grammar

/-! ### Outcomes without an error -/

/-- Tokens as they are between the first token and the end of a file that the lexer reads without a
problem. -/
def Valid (ts : List Token) : Prop := ∀ tok ∈ ts, tok.kind ≠ .invalid ∧ tok.kind ≠ .eof

theorem Valid.later {o : ParseOptions} {s s' : ParseState} (h : Valid s.rest)
    (hlater : s.Later o s') :
  Valid s'.rest
  := by
  intro tok htok
  apply h tok (hlater.rest.subset htok)

theorem Valid.advance {s : ParseState} {tok : Token} {rest : List Token} (h : Valid s.rest)
    (hs : s.rest = tok :: rest) :
  Valid (s.advance tok rest).rest
  := by
  rw [hs] at h
  apply (List.forall_mem_cons.mp h).2

/-- The tokens are those of `Q`, followed by those of `Q'`. -/
def Then (Q Q' : List Token → List Token → Prop) (ts rest : List Token) : Prop :=
  ∃ us vs, ts = us ++ vs ∧ Q us (vs ++ rest) ∧ Q' vs rest

/-- One token of the given kind. -/
def One (k : TokenKind) (ts _rest : List Token) : Prop := ∃ tok, ts = [tok] ∧ tok.kind = k

/-- No tokens. -/
def Nothing (ts _rest : List Token) : Prop := ts = []

/-- From `s` to the outcome `r` tokens are taken and errors are counted; if none is, and the limit
on errors is not reached, the outcome is a success after tokens that satisfy `Q`. -/
structure Sound {α : Type} (o : ParseOptions) (s : ParseState)
    (Q : List Token → List Token → Prop) (r : Outcome α) : Prop where
  later : s.Later o r.2
  taken : r.2.errors = s.errors → s.isEnough o = false →
    r.1.isSome ∧ ∃ ts, s.rest = ts ++ r.2.rest ∧ Q ts r.2.rest

namespace Sound

variable {α β : Type} {o : ParseOptions} {s s' : ParseState} {Q R : List Token → List Token → Prop}
variable {r : Outcome α} {f : α → ParseState → Outcome β} {tok : Token} {rest : List Token}

theorem mono (h : Sound o s Q r) (hQ : ∀ ts rest, Q ts rest → R ts rest) :
  Sound o s R r
  := by
  use h.later
  intro herrors henough
  obtain ⟨hsome, ts, hts, hq⟩ := h.taken herrors henough
  exact ⟨hsome, ts, hts, hQ _ _ hq⟩

theorem success (a : α) (h : Q [] s.rest) :
  Sound o s Q (some a, s)
  := ⟨.refl s, fun _ _ => ⟨rfl, [], rfl, h⟩⟩

theorem report (p : SyntaxProblem) (opened : Option Span) :
  Sound (α := α) o s Q (none, s.report o p opened)
  := by
  use ParseState.later_report o s p opened
  intro herrors
  dsimp only at herrors
  rw [ParseState.errors_report] at herrors
  omega

/-- A failure counts an error. -/
theorem lt_of_none (h : Sound (α := α) o s Q (none, s')) (henough : s.isEnough o = false) :
  s.errors < s'.errors
  := by
  apply Nat.lt_of_le_of_ne h.later.errors
  intro herrors
  cases (h.taken herrors.symm henough).1

/-- What is done after the first token. -/
theorem cons {k : TokenKind} (hs : s.rest = tok :: rest) (hk : tok.kind = k)
    (h : Sound o (s.advance tok rest) Q r) :
  Sound o s (Then (One k) Q) r
  := by
  use (ParseState.later_advance hs).trans h.later
  intro herrors henough
  obtain ⟨hsome, ts, hts, hq⟩ := h.taken herrors henough
  refine ⟨hsome, tok :: ts, ?_, [tok], ts, rfl, ⟨tok, rfl, hk⟩, hq⟩
  rw [hs, List.cons_append, ← hts]
  rfl

/-- What is done after a success, which may depend on its value and its state. -/
theorem bind {C : α → ParseState → List Token → List Token → Prop} (h : Sound o s Q r)
    (hf : ∀ a s', r = (some a, s') → s.Later o s' → Sound o s' (C a s') (f a s'))
    (hQ : ∀ a s' ts ts' rest, r = (some a, s') → s.rest = ts ++ s'.rest →
      s'.rest = ts' ++ rest → Q ts s'.rest → C a s' ts' rest → R (ts ++ ts') rest) :
  Sound o s R (r.andThen f)
  := by
  obtain ⟨_ | a, s'⟩ := r
  · use h.later
    intro herrors henough
    cases (h.taken herrors henough).1
  · have hf := hf a s' rfl h.later
    use h.later.trans hf.later
    intro herrors henough
    rw [andThen_some] at herrors ⊢
    have hle := h.later.errors
    have hle' := hf.later.errors
    have hsame : s'.errors = s.errors := by dsimp only at hle; omega
    have henough' : s'.isEnough o = false := by
      rw [ParseState.isEnough, ParseState.counter, hsame]
      apply henough
    obtain ⟨-, ts, hts, hq⟩ := h.taken hsame henough
    obtain ⟨hsome, ts', hts', hr⟩ := hf.taken (herrors.trans hsame.symm) henough'
    refine ⟨hsome, ts ++ ts', ?_, hQ a s' ts ts' _ rfl hts hts' hq hr⟩
    rw [hts, List.append_assoc, ← hts']

theorem andThen (h : Sound o s Q r)
    (hf : ∀ a s', r = (some a, s') → s.Later o s' → Sound o s' R (f a s')) :
  Sound o s (Then Q R) (r.andThen f)
  := by
  apply h.bind hf
  intro a s' ts ts' rest _ _ hs' hq hq'
  rw [hs'] at hq
  exact ⟨ts, ts', rfl, hq, hq'⟩

/-- What is done after a success may take no more tokens. -/
theorem ending (h : Sound o s Q r)
    (hf : ∀ a s', r = (some a, s') → Sound o s' Nothing (f a s')) :
  Sound o s Q (r.andThen f)
  := by
  apply h.bind (fun a s' hr _ => hf a s' hr)
  rintro a s' ts ts' rest _ _ hs' hq rfl
  rw [hs'] at hq
  rwa [List.append_nil]

theorem of_addExpr {span : Span} {form : ExprForm} (h : Sound o (s.addExpr span form).2 Q r) :
  Sound o s Q r
  := ⟨⟨h.later.rest, h.later.errors, h.later.reports,
    fun hsilent hs => h.later.reported hsilent ⟨hs.codes, hs.first⟩⟩, h.taken⟩

end Sound

namespace Parser

variable {o : ParseOptions} {s : ParseState} {n : Nat} {rest : List Token}

/-- A token is taken, or it is not next. -/
theorem took?_cases (s : ParseState) (k : TokenKind) :
  s.took? k = none ∧ next s.rest ≠ some k
    ∨ ∃ tok rest, s.rest = tok :: rest ∧ tok.kind = k ∧ s.took? k = some (tok, s.advance tok rest)
  := by
  by_cases hnext : next s.rest = some k
  · right
    cases hrest : s.rest with
    | nil =>
        rw [hrest] at hnext
        cases hnext
    | cons tok rest =>
        rw [hrest] at hnext
        have hk : tok.kind = k := by cases hnext; rfl
        exact ⟨tok, rest, rfl, hk, ParseState.took?_of_eq hrest hk⟩
  · exact .inl ⟨ParseState.took?_of_next hnext, hnext⟩

theorem expect_sound (k : TokenKind) (p : SyntaxProblem) (opened : Option Span) :
  Sound o s (One k) (expect o s k p opened).out
  := by
  rw [expect_out]
  obtain ⟨htook, -⟩ | ⟨tok, rest, hs, hk, htook⟩ := took?_cases s k
  · rw [htook]
    apply Sound.report
  · rw [htook]
    apply (Sound.cons hs hk (Sound.success (Q := Nothing) tok rfl)).mono
    rintro ts rest ⟨us, vs, rfl, hone, rfl⟩
    rwa [List.append_nil]

theorem leaf_sound (span : Span) (form : ExprForm) :
  Sound o s Nothing (leaf s span form)
  := ⟨.of_eq rfl rfl rfl, fun _ _ => ⟨rfl, [], rfl, rfl⟩⟩

/-! ### Expressions -/

/-- An operand of the level after `n`, which ends before looser operators. -/
def Operand (n : Nat) (ts rest : List Token) : Prop :=
  (∃ e, Derives (.operand (n + 1)) ts [e]) ∧ EndsAt n ts rest

/-- One or more arguments. -/
def Arguments (ts _rest : List Token) : Prop := ∃ es, Derives .arguments ts es

/-- All parsers of expressions are sound with fewer than the given number of tokens left. -/
def SoundBelow (o : ParseOptions) (left : Nat) : Prop :=
  ∀ s : ParseState, s.left < left → Valid s.rest →
    (∀ n ≤ 6, Sound o s (Operand n) (binary o (n + 1) s).out)
      ∧ Sound o s (Operand 6) (unary o s).out
      ∧ Sound o s Arguments (argList o s).out

/-- An operand whose last token is no name ends before every parenthesis. -/
theorem endsAt_concat (ts : List Token) {tok : Token} (hk : tok.kind ≠ .ident) :
  EndsAt 6 (ts ++ [tok]) rest
  := by
  constructor
  · intro m k op _ hop
    apply hop.level_le.2
  · intro _ tok' hlast
    rw [List.getLast?_concat, Option.some.injEq] at hlast
    rwa [← hlast]

theorem EndsAt.append {us ts : List Token} (h : EndsAt n ts rest) (hts : ts ≠ []) :
  EndsAt n (us ++ ts) rest
  := by
  use h.1
  intro hnext tok htok
  apply h.2 hnext tok
  rwa [List.getLast?_append_of_ne_nil _ hts] at htok

theorem Operand.ne_nil {ts : List Token} (h : Operand n ts rest) :
  ts ≠ []
  := by
  obtain ⟨⟨e, he⟩, -⟩ := h
  obtain ⟨tok, ts', rfl, -⟩ := he.exists_head
  simp

/-- The tokens `ts` extend every operand that ends before them to one of the level after `n`. -/
def Extension (n : Nat) (ts rest : List Token) : Prop :=
  ∀ m us l, Derives (.operand m) us [l] → n + 1 ≤ m → EndsAt m us (ts ++ rest) →
    Operand n (us ++ ts) rest

theorem extension_nil (h : ∀ m k op, next rest = some k → Operator m k op → m ≤ n) :
  Extension n [] rest
  := by
  intro m us l hus hnm hends
  rw [List.append_nil]
  exact ⟨⟨l, hus.of_le hnm⟩, h, hends.2⟩

theorem extension_cons {p : Nat} {tok : Token} {op : BinaryOp} {ts : List Token}
    (hop : Operator p tok.kind op) (hnp : n + 1 ≤ p)
    (h : Then (One tok.kind) (Then (Operand p) (Extension n)) ts rest) :
  Extension n ts rest
  := by
  obtain ⟨_, _, rfl, ⟨tok', rfl, hk⟩, rs, vs, rfl, hr, hext⟩ := h
  rw [← hk] at hop
  obtain ⟨⟨r, hrs⟩, hrends⟩ := id hr
  intro m us l hus hnm hends
  have hpm : p ≤ m := hends.1 p tok'.kind op rfl hop
  have hbinary := Derives.binary hop (hus.of_le hpm) hrs
  have hends' : EndsAt p (us ++ tok' :: rs) (vs ++ rest) := by
    rw [List.append_cons]
    apply EndsAt.append hrends hr.ne_nil
  have hoperand := hext p _ _ hbinary hnp hends'
  rwa [List.append_assoc, List.cons_append] at hoperand

theorem climb_sound {left : Nat} (ih : SoundBelow o left) (hleft : s.left ≤ left)
    (hvalid : Valid s.rest) (id : ExprId) :
  Sound o s (Extension n) (climb o (n + 1) id s).out
  := by
  induction hk : s.left using Nat.strongRecOn generalizing id s with
  | ind k ihk =>
      obtain hstop | ⟨tok, rest, op, hs, hop, hle⟩ := climb_cases (n + 1) s
      · rw [climb_stop hstop]
        apply Sound.success
        apply extension_nil
        intro m k op hnext hop
        obtain ⟨hop, rfl⟩ := operator_iff.mp hop
        apply Nat.le_of_lt_succ
        apply hstop op
        rwa [ParseState.peek_of_next hnext]
      · have hlt := ParseState.left_advance_lt hs
        have hvalid' := hvalid.advance hs
        rw [climb_go hs hop hle]
        have hright := (ih _ (by omega) hvalid').1 op.precedence
          (operator_iff.mpr ⟨hop, rfl⟩).level_le.2
        apply (Sound.cons hs rfl (hright.andThen (R := Extension n) _)).mono
        · intro ts rest h
          apply extension_cons (operator_iff.mpr ⟨hop, rfl⟩) hle h
        · intro right s₂ _ hlater
          have hleft₂ : (addBinary op id right s₂).2.left ≤ (s.advance tok rest).left :=
            hlater.left_le
          have hvalid₂ : Valid s₂.rest := hvalid'.later hlater
          have hclimb := @ihk _ (by omega) (addBinary op id right s₂).2 (by omega) hvalid₂
            (addBinary op id right s₂).1 rfl
          apply hclimb.of_addExpr

theorem binary_sound (ih : SoundBelow o s.left) (hvalid : Valid s.rest) (hn : n ≤ 6)
    (h : Sound o s (Operand 6) (unary o s).out) :
  Sound o s (Operand n) (binary o (n + 1) s).out
  := by
  rw [binary_out]
  apply (h.andThen (R := Extension n) _).mono
  · rintro ts rest ⟨us, vs, rfl, ⟨⟨e, he⟩, hends⟩, hext⟩
    apply hext 7 us e he (Nat.succ_le_succ hn) (hends.of_le (by decide))
  · intro id s' _ hlater
    apply climb_sound ih hlater.left_le (hvalid.later hlater)

theorem argList_sound (ih : SoundBelow o s.left) (hvalid : Valid s.rest)
    (h : Sound o s (Operand 0) (expr o s).out) :
  Sound o s Arguments (argList o s).out
  := by
  rw [argList_out]
  apply (h.andThen (R := fun ts rest => ts = [] ∨ Then (One .comma) Arguments ts rest) _).mono
  · rintro ts rest ⟨us, vs, rfl, ⟨⟨e, he⟩, -⟩, rfl | ⟨_, ws, rfl, ⟨comma, rfl, hcomma⟩, es, hes⟩⟩
    · rw [List.append_nil]
      exact ⟨[e], .argument he⟩
    · exact ⟨e :: es, .arguments he hcomma hes⟩
  · intro id s' _ hlater
    obtain ⟨htook, -⟩ | ⟨comma, rest, hs', hcomma, htook⟩ := took?_cases s' .comma
    · rw [htook]
      apply Sound.success _ (.inl rfl)
    · rw [htook]
      have hlt := ParseState.left_advance_lt hs'
      have hle := hlater.left_le
      have hvalid' := (hvalid.later hlater).advance hs'
      have hargs := (ih _ (by omega) hvalid').2.2
      apply (Sound.cons hs' hcomma (hargs.ending fun ids s₃ _ => .success _ rfl)).mono
      intro ts rest
      apply Or.inr

/-- None or more arguments. -/
def ArgumentsOrNone (ts rest : List Token) : Prop := ts = [] ∨ Arguments ts rest

theorem args_sound (h : Sound o s Arguments (argList o s).out) :
  Sound o s ArgumentsOrNone (args o s).out
  := by
  cases hat : s.isAt .rparen with
  | true =>
      rw [args_none hat]
      apply Sound.success _ (.inl rfl)
  | false =>
      rw [args_some hat]
      apply h.mono fun _ _ => .inr

/-- A name with its arguments in parentheses. -/
theorem operand_of_call {ts : List Token}
    (h : Then (One .ident) (Then (One .lparen) (Then ArgumentsOrNone (One .rparen))) ts rest) :
  Operand 6 ts rest
  := by
  obtain ⟨_, _, rfl, ⟨name, rfl, hname⟩, _, _, rfl, ⟨opener, rfl, hopen⟩, us, _, rfl, hargs, closer,
    rfl, hclose⟩ := h
  constructor
  · obtain rfl | ⟨es, hes⟩ := hargs
    · exact ⟨_, .callNone hname hopen hclose⟩
    · exact ⟨_, .call hname hopen hes hclose⟩
  · apply endsAt_concat (name :: opener :: us)
    simp [hclose]

/-- An expression in parentheses. -/
theorem operand_of_group {ts : List Token}
    (h : Then (One .lparen) (Then (Operand 0) (One .rparen)) ts rest) :
  Operand 6 ts rest
  := by
  obtain ⟨_, _, rfl, ⟨opener, rfl, hopen⟩, us, _, rfl, ⟨⟨e, he⟩, -⟩, closer, rfl, hclose⟩ := h
  constructor
  · exact ⟨_, .group hopen he hclose⟩
  · apply endsAt_concat (opener :: us)
    simp [hclose]

/-- A single token that is an operand. -/
theorem leaf_operand {tok : Token} {e : Expr} {form : ExprForm} (hs : s.rest = tok :: rest)
    (he : Derives (.operand 7) [tok] [e]) (hends : EndsAt 6 [tok] rest) :
  Sound o s (Operand 6) (leaf (s.advance tok rest) tok.span form)
  := by
  use (ParseState.later_advance hs).trans (.of_eq rfl rfl rfl)
  intro _ _
  exact ⟨rfl, [tok], hs, ⟨e, he⟩, hends⟩

theorem ident_sound {tok : Token} (ih : SoundBelow o s.left) (hvalid : Valid s.rest)
    (hs : s.rest = tok :: rest) (hk : tok.kind = .ident) :
  Sound o s (Operand 6) (primary o s).out
  := by
  obtain ⟨htook, hnext⟩ | ⟨opener, rest', hs', hopen, -⟩ :=
    took?_cases (s.advance tok rest) .lparen
  · rw [primary_ident hs hk htook]
    apply leaf_operand hs (.ident hk)
    constructor
    · intro m k op _ hop
      apply hop.level_le.2
    · intro h
      contradiction
  · cases hs'
    have hs' : (s.advance tok (opener :: rest')).rest = opener :: rest' := rfl
    have hlt := ParseState.left_advance_lt hs
    have hlt' := ParseState.left_advance_lt hs'
    have hvalid' := (hvalid.advance hs).advance hs'
    have hargs := args_sound (ih _ (by omega) hvalid').2.2
    rw [primary_call hs hk hopen]
    apply (Sound.cons hs hk (.cons hs' hopen (hargs.andThen fun ids s₃ _ _ =>
      (expect_sound ..).ending fun closer s₄ _ => leaf_sound ..))).mono
    intro ts rest
    apply operand_of_call

theorem group_sound {tok : Token} (ih : SoundBelow o s.left) (hvalid : Valid s.rest)
    (hs : s.rest = tok :: rest) (hk : tok.kind = .lparen) :
  Sound o s (Operand 6) (primary o s).out
  := by
  have hinner := (ih _ (ParseState.left_advance_lt hs)
    (hvalid.advance hs)).1 0 (by decide)
  rw [primary_group hs hk, expr_out]
  apply (Sound.cons hs hk (hinner.andThen fun inner s₂ _ _ =>
    (expect_sound ..).ending fun closer s₃ _ => leaf_sound ..)).mono
  intro ts rest
  apply operand_of_group

theorem primary_sound (ih : SoundBelow o s.left) (hvalid : Valid s.rest)
    (hsign : UnaryOp.ofToken? s.peek.kind = none) :
  Sound o s (Operand 6) (primary o s).out
  := by
  cases hs : s.rest with
  | nil =>
      rw [primary_nil hs]
      apply Sound.report
  | cons tok rest =>
      have hliteral : ∀ kind, Constant tok.kind kind →
          Sound o s (Operand 6) (primary o s).out := by
        intro kind hk
        rw [primary_literal hs hk]
        apply leaf_operand hs (.literal hk)
        apply endsAt_concat []
        intro hident
        rw [hident] at hk
        cases hk
      cases hk : tok.kind with
      | ident => apply ident_sound ih hvalid hs hk
      | lparen => apply group_sound ih hvalid hs hk
      | number => apply hliteral .number (hk ▸ .number)
      | string => apply hliteral .string (hk ▸ .string)
      | kwTrue => apply hliteral .boolean (hk ▸ .true)
      | kwFalse => apply hliteral .boolean (hk ▸ .false)
      | invalid => cases (hvalid tok (by simp [hs])).1 hk
      | minus | bang =>
          rw [ParseState.peek_cons hs, hk] at hsign
          cases hsign
      | _ =>
          rw [primary_other hs (by rw [hk]; rfl) (by simp [hk])]
          apply Sound.report

theorem unary_sound (ih : SoundBelow o s.left) (hvalid : Valid s.rest) :
  Sound o s (Operand 6) (unary o s).out
  := by
  cases hop : UnaryOp.ofToken? s.peek.kind with
  | none =>
      rw [unary_primary hop]
      apply primary_sound ih hvalid hop
  | some op =>
      cases hs : s.rest with
      | nil =>
          rw [ParseState.peek_nil hs] at hop
          cases hop
      | cons tok rest =>
          rw [ParseState.peek_cons hs] at hop
          rw [unary_sign hs hop]
          have hoperand := (ih _ (ParseState.left_advance_lt hs)
            (hvalid.advance hs)).2.1
          apply (Sound.cons hs rfl (hoperand.ending fun operand s₂ _ => leaf_sound ..)).mono
          rintro ts rest ⟨_, us, rfl, ⟨tok', rfl, hk⟩, ⟨⟨e, he⟩, hends⟩⟩
          rw [← hk] at hop
          refine ⟨⟨_, .unary (sign_iff.mpr hop) he⟩, ?_⟩
          apply EndsAt.append hends
          apply Operand.ne_nil ⟨⟨e, he⟩, hends⟩

/-- All parsers of expressions are sound. -/
theorem sound_below (o : ParseOptions) (left : Nat) :
  SoundBelow o left
  := by
  induction left with
  | zero =>
      intro s hs
      cases hs
  | succ left ih =>
      intro s hs hvalid
      have ih : SoundBelow o s.left := fun s' hs' => ih s' (by omega)
      have hunary := unary_sound ih hvalid
      have hbinary : ∀ n ≤ 6, Sound o s (Operand n) (binary o (n + 1) s).out :=
        fun n hn => binary_sound ih hvalid hn hunary
      refine ⟨hbinary, hunary, argList_sound ih hvalid ?_⟩
      rw [expr_out]
      apply hbinary 0 (by decide)

theorem expr_sound (hvalid : Valid s.rest) :
  Sound o s (Operand 0) (expr o s).out
  := by
  rw [expr_out]
  apply (sound_below o (s.left + 1) s (Nat.lt_succ_self _) hvalid).1 0 (by decide)

end Parser

end ThreeAddress
