import ThreeAddress.Proofs.Syntax.Mirroring

/-!
# Every parser is mirrored

Expressions and statements are parsed without a look at the errors, so their parsers are mirrored
with no check.  Only lists of statements check whether they give up, each time before a statement,
and a statement takes a token before the lists inside it begin.
-/

namespace ThreeAddress

open Outcome

namespace Parser

section

variable {α : Type} {o : ParseOptions} {c lo : Nat} {s : ParseState} {tok : Token}
variable {rest : List Token}

/-! ### Tokens and nodes -/

/-- A token and what follows it. -/
theorem mirrored_advance {run : ParseOptions → ParseState → Outcome α}
    (hs : s.rest = tok :: rest) (h : Mirrored o c lo (s.advance tok rest) run) :
  Mirrored o c lo s fun o' t => run o' (t.advance tok rest)
  := (Mirrored.take hs).andThen (f := fun o' _ t => run o' t) fun _ _ hrun _ _ => by
    cases hrun
    exact h

/-- An optional token and what follows it. -/
theorem mirrored_took? (k : TokenKind) {run : ParseOptions → ParseState → Outcome α}
    {run' : ParseOptions → Token → ParseState → Outcome α} (hnone : Mirrored o c lo s run)
    (hsome : ∀ tok rest, s.rest = tok :: rest →
      Mirrored o c lo (s.advance tok rest) fun o' t => run' o' tok t) :
  Mirrored o c lo s fun o' t =>
    match t.took? k with
    | none => run o' t
    | some (tok, t') => run' o' tok t'
  := by
  obtain ⟨-, hnext⟩ | ⟨tok, rest, hs, hk, -⟩ := took?_cases s k
  · apply hnone.congr
    intro o' t ht
    rw [ParseState.took?_of_next (by rwa [ht.rest])]
  · apply (mirrored_advance hs (hsome tok rest hs)).congr
    intro o' t ht
    rw [ParseState.took?_of_eq (ht.rest.trans hs) hk]

theorem leaf_mirrored (span : Span) (form : ExprForm) :
  Mirrored o c lo s fun _ t => leaf t span form
  := by
  refine ⟨[], .unchecked (Nat.le_refl _) rfl (Nat.le_refl _), fun _ t _ _ ht => ?_⟩
  have hadd : t.tree.addExpr span form = s.tree.addExpr span form := by rw [ht.alike.tree]
  constructor
  · simp only [leaf, ParseState.addExpr, hadd]
  · simp only [leaf, ParseState.addExpr, hadd]
    exact ht.withTree _

theorem close_mirrored (start : Span) (form : StmtForm) :
  Mirrored o c lo s fun _ t => close t start form
  := by
  refine ⟨[], .unchecked (Nat.le_refl _) rfl (Nat.le_refl _), fun _ t _ _ ht => ?_⟩
  have hadd : t.tree.addStmt (start.cover t.last) form
      = s.tree.addStmt (start.cover s.last) form := by
    rw [ht.alike.tree, ht.alike.last]
  constructor
  · simp only [close, ParseState.addStmt, hadd]
  · simp only [close, ParseState.addStmt, hadd]
    exact ht.withTree _

theorem closeLine_mirrored (start : Span) (form : StmtForm) :
  Mirrored o c lo s fun _ t => closeLine t start form
  := by
  have hpast : Mirrored o c lo s fun _ t =>
      match t.took? .semicolon with
      | none => close t start form
      | some (_, t') => close t' start form :=
    mirrored_took? .semicolon (close_mirrored start form) fun _ _ _ => close_mirrored start form
  apply hpast.congr
  intro o' t _
  rw [closeLine, ParseState.past]
  rcases t.took? .semicolon with _ | ⟨semi, t'⟩ <;> rfl

/-! ### Expressions -/

/-- Parsers of expressions are mirrored with fewer than the given number of tokens left. -/
def ExprsMirroredBelow (o : ParseOptions) (c lo left : Nat) : Prop :=
  ∀ s : ParseState, s.left < left →
    (∀ least, Mirrored o c lo s fun o' t => (binary o' least t).out)
      ∧ (Mirrored o c lo s fun o' t => (unary o' t).out)
      ∧ Mirrored o c lo s fun o' t => (argList o' t).out

theorem climb_mirrored {left least : Nat} (ih : ExprsMirroredBelow o c lo left) (id : ExprId)
    (hleft : s.left ≤ left) :
  Mirrored o c lo s fun o' t => (climb o' least id t).out
  := by
  induction hk : s.left using Nat.strongRecOn generalizing id s with
  | ind k ihk =>
      obtain hstop | ⟨tok, rest, op, hs, hop, hle⟩ := climb_cases least s
      · apply (Mirrored.value (some id)).congr
        intro o' t ht
        rw [climb_stop]
        rwa [ht.peek]
      · have hlt := ParseState.left_advance_lt hs
        have hadded : ∀ right s₂, s₂.left < k → Mirrored o c lo s₂ fun o' t =>
            (climb o' least (addBinary op id right t).1 (addBinary op id right t).2).out := by
          intro right s₂ hleft₂
          have hleaf : Mirrored o c lo s₂ fun o' t =>
              (leaf t ((s₂.tree.exprSpan id).cover (s₂.tree.exprSpan right))
                (.binary op id right)).andThen fun id' t => (climb o' least id' t).out := by
            apply (leaf_mirrored ..).andThen
            intro id' s₃ hrun _ _
            cases hrun
            exact ihk s₂.left hleft₂ _ (by omega) rfl
          apply hleaf.congr
          intro o' t ht
          rw [addBinary, ht.tree]
          rfl
        have hgo : Mirrored o c lo (s.advance tok rest) fun o' t =>
            (binary o' (op.precedence + 1) t).out.andThen fun right t =>
              (climb o' least (addBinary op id right t).1 (addBinary op id right t).2).out := by
          apply ((ih (s.advance tok rest) (by omega)).1 _).andThen
          intro right s₂ _ hle hsum
          exact hadded right s₂ (by omega)
        apply (mirrored_advance hs hgo).congr
        intro o' t ht
        exact climb_go (ht.rest.trans hs) hop hle

theorem binary_mirrored {least : Nat} (ih : ExprsMirroredBelow o c lo s.left)
    (h : Mirrored o c lo s fun o' t => (unary o' t).out) :
  Mirrored o c lo s fun o' t => (binary o' least t).out
  := by
  simp only [binary_out]
  apply h.andThen
  intro id s' _ hle hsum
  exact climb_mirrored ih id (by omega)

theorem argList_mirrored (ih : ExprsMirroredBelow o c lo s.left)
    (h : Mirrored o c lo s fun o' t => (expr o' t).out) :
  Mirrored o c lo s fun o' t => (argList o' t).out
  := by
  apply Mirrored.congr (fun o' t _ => argList_out)
  apply h.andThen
  intro id s' _ hle hsum
  apply mirrored_took? .comma (.value _)
  intro comma rest hs'
  have hlt := ParseState.left_advance_lt hs'
  apply (ih _ (by omega)).2.2.andThen
  intro ids s₃ _ _ _
  apply Mirrored.value

theorem args_mirrored (h : Mirrored o c lo s fun o' t => (argList o' t).out) :
  Mirrored o c lo s fun o' t => (args o' t).out
  := by
  cases hat : s.isAt .rparen with
  | true =>
      apply (Mirrored.value (some [])).congr
      intro o' t ht
      exact args_none ((ht.isAt _).trans hat)
  | false =>
      apply h.congr
      intro o' t ht
      exact args_some ((ht.isAt _).trans hat)

/-- Lists of statements are mirrored with fewer than the given number of tokens left. -/
def ListsMirroredBelow (o : ParseOptions) (c left : Nat) : Prop :=
  ∀ (s : ParseState) (stop : TokenKind) (lo : Nat), s.left < left → lo ≤ s.taken →
    Mirrored o c lo s fun o' t => listOut o' stop t

variable (hmax : 0 < o.maxErrors)
include hmax

theorem expect_mirrored (k : TokenKind) (p : SyntaxProblem) (opened : Option Span) :
  Mirrored o c lo s fun o' t => (expect o' t k p opened).out
  := by
  have htook : Mirrored o c lo s fun o' t =>
      match t.took? k with
      | none => (none, t.report o' p opened)
      | some (tok, t') => (some tok, t') :=
    mirrored_took? k (.report hmax p opened) fun _ _ _ => .value _
  apply htook.congr
  intro o' t _
  rw [expect_out]
  rcases t.took? k with _ | ⟨tok, t'⟩ <;> rfl

theorem ident_mirrored (ih : ExprsMirroredBelow o c lo s.left) (hs : s.rest = tok :: rest)
    (hk : tok.kind = .ident) :
  Mirrored o c lo s fun o' t => (primary o' t).out
  := by
  obtain ⟨-, hnext⟩ | ⟨opener, rest', hs', hopen, -⟩ := took?_cases (s.advance tok rest) .lparen
  · apply (mirrored_advance hs (leaf_mirrored tok.span (.ident tok.text))).congr
    intro o' t ht
    exact primary_ident (ht.rest.trans hs) hk (ParseState.took?_of_next hnext)
  · cases hs'
    have hs' : (s.advance tok (opener :: rest')).rest = opener :: rest' := rfl
    have hlt := ParseState.left_advance_lt hs
    have hlt' := ParseState.left_advance_lt hs'
    have hcall : Mirrored o c lo ((s.advance tok (opener :: rest')).advance opener rest')
        fun o' t => (args o' t).out.andThen fun ids t =>
          (expect o' t .rparen .argsClose (some opener.span)).out.andThen fun closer t =>
            leaf t (tok.span.cover closer.span) (.call tok.text tok.span ids) := by
      apply (args_mirrored (ih _ (by omega)).2.2).andThen
      intro ids s₃ _ _ _
      apply (expect_mirrored hmax ..).andThen
      intro closer s₄ _ _ _
      apply leaf_mirrored
    apply (mirrored_advance hs (mirrored_advance hs' hcall)).congr
    intro o' t ht
    exact primary_call (ht.rest.trans hs) hk hopen

theorem group_mirrored (ih : ExprsMirroredBelow o c lo s.left) (hs : s.rest = tok :: rest)
    (hk : tok.kind = .lparen) :
  Mirrored o c lo s fun o' t => (primary o' t).out
  := by
  have hgroup : Mirrored o c lo (s.advance tok rest) fun o' t =>
      (binary o' 1 t).out.andThen fun inner t =>
        (expect o' t .rparen .groupClose (some tok.span)).out.andThen fun closer t =>
          leaf t (tok.span.cover closer.span) (.group inner) := by
    apply ((ih _ (ParseState.left_advance_lt hs)).1 1).andThen
    intro inner s₂ _ _ _
    apply (expect_mirrored hmax ..).andThen
    intro closer s₃ _ _ _
    apply leaf_mirrored
  apply (mirrored_advance hs hgroup).congr
  intro o' t ht
  rw [primary_group (ht.rest.trans hs) hk, expr_out]

theorem primary_mirrored (ih : ExprsMirroredBelow o c lo s.left)
    (hsign : UnaryOp.ofToken? s.peek.kind = none) :
  Mirrored o c lo s fun o' t => (primary o' t).out
  := by
  cases hs : s.rest with
  | nil =>
      apply (Mirrored.report hmax (.expression s.peek) none).congr
      intro o' t ht
      rw [primary_nil (ht.rest.trans hs), ht.peek]
  | cons tok rest =>
      have hliteral : ∀ kind, Grammar.Constant tok.kind kind →
          Mirrored o c lo s fun o' t => (primary o' t).out := by
        intro kind hk
        apply (mirrored_advance hs (leaf_mirrored tok.span (.literal kind tok.text))).congr
        intro o' t ht
        exact primary_literal (ht.rest.trans hs) hk
      cases hk : tok.kind with
      | ident => apply ident_mirrored hmax ih hs hk
      | lparen => apply group_mirrored hmax ih hs hk
      | number => apply hliteral .number (hk ▸ .number)
      | string => apply hliteral .string (hk ▸ .string)
      | kwTrue => apply hliteral .boolean (hk ▸ .true)
      | kwFalse => apply hliteral .boolean (hk ▸ .false)
      | invalid =>
          apply (mirrored_advance hs (.value none)).congr
          intro o' t ht
          exact primary_invalid (ht.rest.trans hs) hk
      | minus | bang =>
          rw [ParseState.peek_cons hs, hk] at hsign
          cases hsign
      | _ =>
          apply (Mirrored.report hmax (.expression tok) none).congr
          intro o' t ht
          exact primary_other (ht.rest.trans hs) (by rw [hk]; rfl) (by simp [hk])

theorem unary_mirrored (ih : ExprsMirroredBelow o c lo s.left) :
  Mirrored o c lo s fun o' t => (unary o' t).out
  := by
  cases hop : UnaryOp.ofToken? s.peek.kind with
  | none =>
      apply (primary_mirrored hmax ih hop).congr
      intro o' t ht
      exact unary_primary (by rwa [ht.peek])
  | some op =>
      cases hs : s.rest with
      | nil =>
          rw [ParseState.peek_nil hs] at hop
          cases hop
      | cons tok rest =>
          rw [ParseState.peek_cons hs] at hop
          have hsign : Mirrored o c lo (s.advance tok rest) fun o' t =>
              (unary o' t).out.andThen fun operand t =>
                leaf t (tok.span.cover (t.tree.exprSpan operand)) (.unary op operand) := by
            apply (ih _ (ParseState.left_advance_lt hs)).2.1.andThen
            intro operand s₂ _ _ _
            apply (leaf_mirrored (tok.span.cover (s₂.tree.exprSpan operand))
              (.unary op operand)).congr
            intro o' t ht
            rw [ht.tree]
          apply (mirrored_advance hs hsign).congr
          intro o' t ht
          exact unary_sign (ht.rest.trans hs) hop

theorem exprs_mirrored_below (c lo left : Nat) :
  ExprsMirroredBelow o c lo left
  := by
  induction left with
  | zero => exact fun s hs => absurd hs (Nat.not_lt_zero _)
  | succ left ih =>
      intro s hs
      have ih : ExprsMirroredBelow o c lo s.left := fun s' hs' => ih s' (by omega)
      have hunary := unary_mirrored hmax ih
      refine ⟨fun least => binary_mirrored ih hunary, hunary, argList_mirrored ih ?_⟩
      simp only [expr_out]
      exact binary_mirrored ih hunary

theorem expr_mirrored (s : ParseState) :
  Mirrored o c lo s fun o' t => (expr o' t).out
  := by
  simp only [expr_out]
  exact (exprs_mirrored_below hmax c lo (s.left + 1) s (Nat.lt_succ_self _)).1 1

/-! ### Statements -/

theorem letStmt_mirrored (start : Span) :
  Mirrored o c lo s fun o' t => (letStmt o' t start).out
  := by
  simp only [letStmt_out]
  apply (expect_mirrored hmax ..).andThen
  intro name s' _ _ _
  apply (expect_mirrored hmax ..).andThen
  intro eq s₂ _ _ _
  apply (expr_mirrored hmax s₂).andThen
  intro value s₃ _ _ _
  apply closeLine_mirrored

theorem assignTo_mirrored (start : Span) (id : ExprId) (s : ParseState) {eq : Token}
    (hs : s.rest = eq :: rest) :
  Mirrored o c lo s fun o' t => assignTo o' start id t (t.advance eq rest)
  := by
  have hother : (∀ nameSpan name, s.tree.expr? id ≠ some ⟨nameSpan, .ident name⟩) →
      Mirrored o c lo s fun o' t => assignTo o' start id t (t.advance eq rest) := by
    intro hother
    apply (Mirrored.report hmax .assignTarget none).congr
    intro o' t ht
    rw [assignTo, ht.tree]
    split
    · next hnode => exact absurd hnode (hother _ _)
    · rfl
  rcases hnode : s.tree.expr? id with _ | ⟨nameSpan, form⟩
  · exact hother fun _ _ => by simp [hnode]
  · cases form with
    | ident name =>
        have hvalue : Mirrored o c lo (s.advance eq rest) fun o' t =>
            (expr o' t).out.andThen fun value t =>
              closeLine t start (.assign name nameSpan value) := by
          apply (expr_mirrored hmax _).andThen
          intro value s₂ _ _ _
          apply closeLine_mirrored
        apply (mirrored_advance hs hvalue).congr
        intro o' t ht
        rw [assignTo, ht.tree, hnode]
    | _ => exact hother fun _ _ => by simp [hnode]

theorem exprStmt_mirrored (s : ParseState) :
  Mirrored o c lo s fun o' t => (exprStmt o' t).out
  := by
  have hexpr : Mirrored o c lo s fun o' t =>
      (expr o' t).out.andThen fun id t =>
        match t.took? .assign with
        | none => closeLine t s.peek.span (.expr id)
        | some (_, t₂) => assignTo o' s.peek.span id t t₂ := by
    apply (expr_mirrored hmax s).andThen
    intro id s' _ _ _
    obtain ⟨-, hnext⟩ | ⟨eq, rest, hs', hk, -⟩ := took?_cases s' .assign
    · apply (closeLine_mirrored s.peek.span (.expr id)).congr
      intro o' t ht
      rw [ParseState.took?_of_next (by rwa [ht.rest])]
    · apply (assignTo_mirrored hmax s.peek.span id s' hs').congr
      intro o' t ht
      rw [ParseState.took?_of_eq (ht.rest.trans hs') hk]
  apply hexpr.congr
  intro o' t ht
  have hout := exprStmt_out (o := o') (s := t)
  rw [ht.peek] at hout
  exact hout

theorem return_mirrored (hs : s.rest = tok :: rest) (hk : tok.kind = .kwReturn) :
  Mirrored o c lo s fun o' t => (stmt o' t).out
  := by
  cases hstart : (s.advance tok rest).peek.kind.startsExpr with
  | true =>
      have hvalue : Mirrored o c lo (s.advance tok rest) fun o' t =>
          (expr o' t).out.andThen fun value t => closeLine t tok.span (.ret value) := by
        apply (expr_mirrored hmax _).andThen
        intro value s₂ _ _ _
        apply closeLine_mirrored
      apply (mirrored_advance hs hvalue).congr
      intro o' t ht
      rw [stmt_return (ht.rest.trans hs) hk, returnStmt_value]
      rwa [(ht.advance tok rest).peek]
  | false =>
      apply (mirrored_advance hs (closeLine_mirrored tok.span (.ret 0))).congr
      intro o' t ht
      rw [stmt_return (ht.rest.trans hs) hk, returnStmt_bare]
      rwa [(ht.advance tok rest).peek]

theorem printStmt_mirrored (start : Span) :
  Mirrored o c lo s fun o' t => (printStmt o' t start).out
  := by
  simp only [printStmt_out]
  apply (expr_mirrored hmax s).andThen
  intro value s' _ _ _
  apply closeLine_mirrored

theorem condition_mirrored (keyword : Text) (s : ParseState) :
  Mirrored o c lo s fun o' t => (condition o' t keyword).out
  := by
  simp only [condition_out]
  apply (expect_mirrored hmax ..).andThen
  intro opener s' _ _ _
  apply (expr_mirrored hmax s').andThen
  intro cond s₂ _ _ _
  apply (expect_mirrored hmax ..).andThen
  intro closer s₃ _ _ _
  apply Mirrored.value

theorem paramList_mirrored (s : ParseState) :
  Mirrored o c lo s fun o' t => (paramList o' t).out
  := by
  induction hk : s.left using Nat.strongRecOn generalizing s with
  | ind k ih =>
      apply Mirrored.congr (fun o' t _ => paramList_out)
      apply (expect_mirrored hmax ..).andThen
      intro name s' _ hle hsum
      apply mirrored_took? .comma (.value _)
      intro comma rest hs'
      have hlt := ParseState.left_advance_lt hs'
      apply (ih _ (by omega) _ rfl).andThen
      intro ps s₃ _ _ _
      apply Mirrored.value

theorem params_mirrored (s : ParseState) :
  Mirrored o c lo s fun o' t => params o' t
  := by
  cases hat : s.isAt .rparen with
  | true =>
      apply (Mirrored.value (some [])).congr
      intro o' t ht
      rw [params, if_pos ((ht.isAt _).trans hat)]
  | false =>
      apply (paramList_mirrored hmax s).congr
      intro o' t ht
      rw [params, if_neg (by simp [ht.isAt, hat])]

theorem signature_mirrored (s : ParseState) :
  Mirrored o c lo s fun o' t => (signature o' t).out
  := by
  simp only [signature_out]
  apply (expect_mirrored hmax ..).andThen
  intro name s' _ _ _
  apply (expect_mirrored hmax ..).andThen
  intro opener s₂ _ _ _
  apply (params_mirrored hmax s₂).andThen
  intro ps s₃ _ _ _
  apply (expect_mirrored hmax ..).andThen
  intro closer s₄ _ _ _
  apply Mirrored.value

theorem block_mirrored {left : Nat} (ih : ListsMirroredBelow o c left) (hleft : s.left ≤ left)
    (hlo : lo ≤ s.taken) :
  Mirrored o c lo s fun o' t => (block o' t).out
  := by
  have hblock : Mirrored o c lo s fun o' t =>
      (expect o' t .lbrace .blockOpen none).out.andThen fun opener t =>
        (listOut o' .rbrace t).andThen fun ids t =>
          (expect o' t .rbrace .blockClose (some opener.span)).out.andThen fun _ t =>
            (some ids, t) := by
    apply (expect_mirrored hmax ..).andThen
    intro opener s' hrun hle _
    have hlt := Parsed.lt_of_out hrun
    apply (ih s' .rbrace lo (by omega) (by omega)).andThen
    intro ids s₂ _ _ _
    apply (expect_mirrored hmax ..).andThen
    intro closer s₃ _ _ _
    apply Mirrored.value
  apply hblock.congr
  intro o' t _
  exact block_out

theorem if_mirrored (ih : ListsMirroredBelow o c s.left) (hs : s.rest = tok :: rest)
    (hk : tok.kind = .kwIf) (hlo : lo ≤ (s.advance tok rest).taken) :
  Mirrored o c lo s fun o' t => (stmt o' t).out
  := by
  have hlt := ParseState.left_advance_lt hs
  have hif : Mirrored o c lo (s.advance tok rest) fun o' t =>
      (condition o' t "if").out.andThen fun cond t =>
        (block o' t).out.andThen fun thenBody t =>
        match t.took? .kwElse with
        | none => close t tok.span (.ifElse cond thenBody [] false)
        | some (_, t) => (block o' t).out.andThen fun elseBody t =>
            close t tok.span (.ifElse cond thenBody elseBody true) := by
    apply (condition_mirrored hmax ..).andThen
    intro cond s₂ _ hle hsum
    apply (block_mirrored hmax ih (by omega) (by omega)).andThen
    intro thenBody s₃ _ hle' hsum'
    apply mirrored_took? .kwElse (close_mirrored ..)
    intro kw rest₃ hs₃
    have hlt₃ := ParseState.left_advance_lt hs₃
    have htaken : (s₃.advance kw rest₃).taken = s₃.taken + 1 := rfl
    apply (block_mirrored hmax ih (by omega) (by omega)).andThen
    intro elseBody s₅ _ _ _
    apply close_mirrored
  apply (mirrored_advance hs hif).congr
  intro o' t ht
  exact stmt_if (ht.rest.trans hs) hk

theorem while_mirrored (ih : ListsMirroredBelow o c s.left) (hs : s.rest = tok :: rest)
    (hk : tok.kind = .kwWhile) (hlo : lo ≤ (s.advance tok rest).taken) :
  Mirrored o c lo s fun o' t => (stmt o' t).out
  := by
  have hlt := ParseState.left_advance_lt hs
  have hwhile : Mirrored o c lo (s.advance tok rest) fun o' t =>
      (condition o' t "while").out.andThen fun cond t =>
        (block o' t).out.andThen fun body t => close t tok.span (.while cond body) := by
    apply (condition_mirrored hmax ..).andThen
    intro cond s₂ _ hle hsum
    apply (block_mirrored hmax ih (by omega) (by omega)).andThen
    intro body s₃ _ _ _
    apply close_mirrored
  apply (mirrored_advance hs hwhile).congr
  intro o' t ht
  exact stmt_while (ht.rest.trans hs) hk

theorem function_mirrored (ih : ListsMirroredBelow o c s.left) (hs : s.rest = tok :: rest)
    (hk : tok.kind = .kwFunction) (hlo : lo ≤ (s.advance tok rest).taken) :
  Mirrored o c lo s fun o' t => (stmt o' t).out
  := by
  have hlt := ParseState.left_advance_lt hs
  have hfunction : Mirrored o c lo (s.advance tok rest) fun o' t =>
      (signature o' t).out.andThen fun sig t =>
        (block o' t).out.andThen fun body t =>
          close t tok.span (.function sig.1.text sig.1.span sig.2 body) := by
    apply (signature_mirrored hmax _).andThen
    intro sig s₂ _ hle hsum
    apply (block_mirrored hmax ih (by omega) (by omega)).andThen
    intro body s₃ _ _ _
    apply close_mirrored
  apply (mirrored_advance hs hfunction).congr
  intro o' t ht
  exact stmt_function (ht.rest.trans hs) hk

/-- In a statement there is no check before its first token is taken. -/
theorem stmt_mirrored (ih : ListsMirroredBelow o c s.left) (hs : s.rest = tok :: rest)
    (hlo : lo ≤ s.taken + 1) :
  Mirrored o c lo s fun o' t => (stmt o' t).out
  := by
  cases hk : tok.kind with
  | kwLet =>
      apply (mirrored_advance hs (letStmt_mirrored hmax tok.span)).congr
      intro o' t ht
      exact stmt_let (ht.rest.trans hs) hk
  | kwIf => apply if_mirrored hmax ih hs hk hlo
  | kwWhile => apply while_mirrored hmax ih hs hk hlo
  | kwFunction => apply function_mirrored hmax ih hs hk hlo
  | kwReturn => apply return_mirrored hmax hs hk
  | kwPrint =>
      apply (mirrored_advance hs (printStmt_mirrored hmax tok.span)).congr
      intro o' t ht
      exact stmt_print (ht.rest.trans hs) hk
  | _ =>
      apply (exprStmt_mirrored hmax s).congr
      intro o' t ht
      rw [stmt_expr]
      rw [ht.peek, ParseState.peek_cons hs, hk]
      simp [isBoundary]

end

/-! ### Lists of statements -/

section

variable {o : ParseOptions} {c lo : Nat} {s s' : ParseState} {stop : TokenKind} {tok : Token}
variable {rest : List Token}

theorem reflects_skipAll {t : ParseState} (h : Reflects o c s t) :
  Reflects o c (skipAll s).val (skipAll t).val
  := by
  induction hs : s.rest generalizing s t with
  | nil => rwa [skipAll_nil hs, skipAll_nil (h.alike.rest.trans hs)]
  | cons tok rest ih =>
      rw [skipAll_cons hs, skipAll_cons (h.alike.rest.trans hs)]
      exact ih (h.advance tok rest) rfl

theorem skipToBoundary_mirrored (s : ParseState) :
  Mirrored o c lo s fun _ t => (some (), (skipToBoundary t).val)
  := by
  induction hs : s.rest generalizing s with
  | nil =>
      apply (Mirrored.value (some ())).congr
      intro o' t ht
      rw [skipToBoundary_nil (ht.rest.trans hs)]
  | cons tok rest ih =>
      cases hboundary : isBoundary s.peek.kind with
      | true =>
          apply (Mirrored.value (some ())).congr
          intro o' t ht
          rw [skipToBoundary_boundary]
          rwa [ht.peek]
      | false =>
          have hskip : ∀ t, Alike s t → (skipToBoundary t).val
              = if tok.kind = .semicolon then t.advance tok rest
                else (skipToBoundary (t.advance tok rest)).val :=
            fun t ht => skipToBoundary_cons (ht.rest.trans hs) (by rwa [ht.peek])
          by_cases hsemi : tok.kind = .semicolon
          · apply (mirrored_advance hs (.value (some ()))).congr
            intro o' t ht
            rw [hskip t ht, if_pos hsemi]
          · apply (mirrored_advance hs (ih (s.advance tok rest) rfl)).congr
            intro o' t ht
            rw [hskip t ht, if_neg hsemi]

/-- A list of statements that has not ended takes a token. -/
theorem taken_lt_listOut (o : ParseOptions) (hrest : s.rest ≠ []) (hstop : s.isAt stop = false) :
  s.taken < (listOut o stop s).2.taken
  := by
  obtain ⟨ids, s', hround⟩ := exists_round o hrest
  obtain ⟨ts, hne, htakes⟩ := hround.takes hrest
  obtain ⟨n, hrounds⟩ := rounds_stmtList o stop s'
  obtain ⟨ts', -, htakes'⟩ := hrounds.takes
  have hpos := List.length_pos_iff.mpr hne
  rw [listOut, stmtList_of_round hround hrest hstop]
  dsimp only
  rw [htakes'.taken, htakes.taken]
  omega

/-- What follows a statement in a list, after which a statement with so many tokens left failed or
not. -/
def following (stop : TokenKind) (left : Nat) (tok : Token) (rest : List Token) :
    Option StmtId → ParseOptions → ParseState → Outcome (List StmtId)
  | some id, o, t => (listOut o stop t).andThen fun ids t => (some (id :: ids), t)
  | none, o, t =>
    listOut o stop (skipToBoundary (if t.left < left then t else t.advance tok rest)).val

theorem listOut_go (hs : s.rest = tok :: rest) (hstop : s.isAt stop = false)
    (hgo : givesUp o s = false) :
  listOut o stop s
    = following stop s.left tok rest (stmt o s).out.1 o (stmt o s).out.2
  := by
  have hrest : s.rest ≠ [] := by rw [hs]; exact List.cons_ne_nil _ _
  rcases hout : (stmt o s).out with ⟨_ | id, s'⟩
  · obtain ⟨le, pos, hlist⟩ := stmtList_failed hgo hrest hstop hout
    rw [listOut, hlist, following]
    obtain hlt | ⟨hlt, hsame⟩ := stmt_failed_cases hrest hout
    · rw [resync_of_lt hlt, if_pos hlt]
      rfl
    · rw [resync_of_not_lt hlt (hsame.trans hs), if_neg hlt]
      rfl
  · rw [listOut, stmtList_parsed hgo hrest hstop hout]
    rfl

theorem following_mirrored (ih : ListsMirroredBelow o c s.left) (hs : s.rest = tok :: rest)
    {v : Option StmtId} (hout : (stmt o s).out = (v, s')) (hle : s.taken ≤ s'.taken)
    (hsum : s'.taken + s'.left = s.taken + s.left) :
  Mirrored o c (s.taken + 1) s' (following stop s.left tok rest v)
  := by
  have hskip : ∀ s₂ : ParseState, s₂.left < s.left → s.taken < s₂.taken →
      Mirrored o c (s.taken + 1) s₂ fun o' t => listOut o' stop (skipToBoundary t).val :=
    fun s₂ hleft htaken => (skipToBoundary_mirrored s₂).andThen
      (f := fun o' _ t => listOut o' stop t)
      fun _ s₃ _ _ _ => ih s₃ stop _ (by omega) (by omega)
  cases v with
  | some id =>
      have hlt := Parsed.lt_of_out hout
      exact (ih s' stop (s.taken + 1) hlt (by omega)).andThen
        (f := fun _ ids t => (some (id :: ids), t)) fun ids s₂ _ _ _ => .value _
  | none =>
      have hrest : s.rest ≠ [] := by rw [hs]; exact List.cons_ne_nil _ _
      obtain hlt | ⟨hlt, hsame⟩ := stmt_failed_cases hrest hout
      · apply (hskip s' hlt (by omega)).congr
        intro o' t ht
        have hlt' : t.left < s.left := by rwa [ht.left]
        rw [following, if_pos hlt']
      · have hs' : s'.rest = tok :: rest := hsame.trans hs
        have hadvance := ParseState.left_advance_lt hs'
        have htaken : (s'.advance tok rest).taken = s'.taken + 1 := rfl
        have hskipped := hskip (s'.advance tok rest) (by omega) (by omega)
        apply (mirrored_advance hs' hskipped).congr
        intro o' t ht
        have hlt' : ¬ t.left < s.left := by rwa [ht.left]
        rw [following, if_neg hlt']

/-- The check at which a list gives up is the last one. -/
theorem way_stop (hgo : givesUp o s) (hrest : s.rest ≠ []) (hlo : lo ≤ s.taken) :
  Way o lo s (skipAll s).val [⟨s.taken, true⟩]
  := by
  have htaken := (takes_skipAll s).taken
  have hnone : (skipAll s).val.left = 0 := congrArg List.length (rest_skipAll s)
  have herrors := (later_skipAll (o := o) s).errors
  have hpos := List.length_pos_iff.mpr hrest
  have hleft : s.left = s.rest.length := rfl
  constructor
  case taken_le => omega
  case sum => omega
  case errors_le => exact herrors
  case bounds =>
    rintro e he
    obtain rfl := List.mem_singleton.mp he
    dsimp only
    omega
  case ordered => apply List.pairwise_singleton
  case stopped =>
    rintro e he -
    obtain rfl := List.mem_singleton.mp he
    refine ⟨hnone, ?_⟩
    rw [givesUp, Bool.or_eq_true] at hgo
    apply hgo.imp id
    intro henough
    rw [ParseState.isEnough, Bool.and_eq_true, decide_eq_true_eq] at henough
    exact Nat.le_trans henough.2 (Nat.le_trans (Nat.mod_le _ _) herrors)
  case passed =>
    intro e he hstops
    obtain rfl := List.mem_singleton.mp he
    cases hstops

/-- After a check at which a list goes on there are later checks only. -/
theorem way_pass {checks : List Check} (hgo : givesUp o s = false) (hlo : lo ≤ s.taken)
    (h : Way o (s.taken + 1) s s' checks) (hlt : s.taken < s'.taken) :
  Way o lo s s' (⟨s.taken, false⟩ :: checks)
  := by
  constructor
  case taken_le => exact h.taken_le
  case sum => exact h.sum
  case errors_le => exact h.errors_le
  case bounds =>
    refine List.forall_mem_cons.mpr ⟨⟨hlo, Nat.le_refl _, hlt⟩, ?_⟩
    intro e he
    have hbounds := h.bounds e he
    omega
  case ordered =>
    refine List.pairwise_cons.mpr ⟨?_, h.ordered⟩
    intro e he
    exact ⟨(h.bounds e he).1, rfl⟩
  case stopped => exact List.forall_mem_cons.mpr ⟨nofun, h.stopped⟩
  case passed =>
    rw [givesUp, Bool.or_eq_false_iff] at hgo
    exact List.forall_mem_cons.mpr ⟨fun _ => hgo.1, h.passed⟩

/-- A check and what follows if the list goes on. -/
theorem check_mirrored {run : ParseOptions → ParseState → Outcome (List StmtId)}
    (hrest : s.rest ≠ []) (hlo : lo ≤ s.taken)
    (hrun : givesUp o s = false →
      Mirrored o c (s.taken + 1) s run ∧ s.taken < (run o s).2.taken) :
  Mirrored o c lo s fun o' t =>
    if givesUp o' t then (some [], (skipAll t).val) else run o' t
  := by
  have hdecided : ∀ o' t, o'.Open → Reflects o c s t → givesUp o' t = o'.cancelledAt s.taken := by
    intro o' t ho ht
    rw [givesUp, ParseState.isEnough_of_unlimited ho.limit, Bool.or_false, ParseState.isCancelled,
      ht.alike.taken]
    rfl
  cases hgo : givesUp o s with
  | true =>
      refine ⟨[⟨s.taken, true⟩], ?_, ?_⟩
      · dsimp only
        rw [if_pos hgo]
        exact way_stop hgo hrest hlo
      · intro o' t ho hdecides ht
        have hgo' : givesUp o' t = true :=
          (hdecided o' t ho ht).trans (hdecides _ List.mem_cons_self)
        dsimp only
        rw [if_pos hgo, if_pos hgo']
        exact ⟨rfl, reflects_skipAll ht⟩
  | false =>
      obtain ⟨⟨checks, hway, hmirror⟩, hlt⟩ := hrun hgo
      have hgoes : ¬ givesUp o s = true := by rw [hgo]; decide
      refine ⟨⟨s.taken, false⟩ :: checks, ?_, ?_⟩
      · dsimp only
        rw [if_neg hgoes]
        exact way_pass hgo hlo hway hlt
      · intro o' t ho hdecides ht
        obtain ⟨hcheck, hdecides⟩ := List.forall_mem_cons.mp hdecides
        have hgoes' : ¬ givesUp o' t = true := by
          rw [hdecided o' t ho ht, hcheck]
          exact Bool.false_ne_true
        dsimp only
        rw [if_neg hgoes, if_neg hgoes']
        exact hmirror o' t ho hdecides ht

theorem lists_mirrored_below (hmax : 0 < o.maxErrors) (c left : Nat) :
  ListsMirroredBelow o c left
  := by
  induction left with
  | zero => exact fun s _ _ hs _ => absurd hs (Nat.not_lt_zero _)
  | succ left ih =>
      intro s stop lo hleft hlo
      have ih : ListsMirroredBelow o c s.left := fun s' stop lo hs' hlo =>
        ih s' stop lo (by omega) hlo
      by_cases hend : s.rest = [] ∨ s.isAt stop
      · apply (Mirrored.value (some [])).congr
        intro o' t ht
        rw [listOut, stmtList_end]
        rwa [ht.rest, ht.isAt]
      · obtain ⟨hrest, hstop⟩ := not_or.mp hend
        rw [Bool.not_eq_true] at hstop
        obtain ⟨tok, rest, hs⟩ := List.exists_cons_of_ne_nil hrest
        have hgoes : ∀ o' t, Alike s t → givesUp o' t = false →
            listOut o' stop t
              = following stop s.left tok rest (stmt o' t).out.1 o' (stmt o' t).out.2 := by
          intro o' t ht hgo
          rw [listOut_go (ht.rest.trans hs) ((ht.isAt _).trans hstop) hgo, ht.left]
        have hlist : Mirrored o c lo s fun o' t =>
            if givesUp o' t then (some [], (skipAll t).val)
            else following stop s.left tok rest (stmt o' t).out.1 o' (stmt o' t).out.2 := by
          apply check_mirrored hrest hlo
          intro hgo
          constructor
          · apply (stmt_mirrored hmax ih hs (Nat.le_refl _)).bind
            intro v s' hout hle hsum
            exact following_mirrored ih hs hout hle hsum
          · rw [← hgoes o s (.refl s) hgo]
            exact taken_lt_listOut o hrest hstop
        apply hlist.congr
        intro o' t ht
        cases hgo : givesUp o' t with
        | true =>
            rw [if_pos rfl, listOut, stmtList_stopped hgo (by rwa [ht.rest])
              ((ht.isAt _).trans hstop)]
        | false =>
            rw [if_neg (by decide)]
            exact hgoes o' t ht hgo

/-- Lists of statements are mirrored. -/
theorem listOut_mirrored (hmax : 0 < o.maxErrors) (c : Nat) (stop : TokenKind) (s : ParseState) :
  Mirrored o c s.taken s fun o' t => listOut o' stop t
  := lists_mirrored_below hmax c _ s stop s.taken (Nat.lt_succ_self _) (Nat.le_refl _)

end

end Parser

end ThreeAddress
