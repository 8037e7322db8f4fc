import Mathlib.Tactic.Common
import ThreeAddress.Proofs.Syntax.Grammar
import ThreeAddress.Syntax.Parser

/-!
# The parsers, step by step

A parser's outcome carries proofs that it takes tokens.  `Parsed.out` and `Continued.out` forget
them: what is left is a value, or none, and a state.  Every parser has an equation for its outcome
in terms of the first token that is left, where `andThen` continues after a success.
-/

namespace ThreeAddress

/-- The outcome of a parser without its proofs. -/
abbrev Outcome (α : Type) := Option α × ParseState

namespace Outcome

variable {α β : Type}

/-- Continues after a success. -/
def andThen (r : Outcome α) (f : α → ParseState → Outcome β) : Outcome β :=
  match r with
  | (some a, s) => f a s
  | (none, s) => (none, s)

@[simp]
theorem andThen_some (a : α) (s : ParseState) (f : α → ParseState → Outcome β) :
  andThen (some a, s) f = f a s
  := rfl

@[simp]
theorem andThen_none (s : ParseState) (f : α → ParseState → Outcome β) :
  andThen (none, s) f = (none, s)
  := rfl

end Outcome

open Outcome

def Parsed.out {α : Type} {s : ParseState} (p : Parsed α s) : Outcome α := (p.value, p.state)

def Continued.out {α : Type} {s : ParseState} (p : Continued α s) : Outcome α := (p.value, p.state)

/-- A parser that succeeds takes a token. -/
theorem Parsed.lt_of_out {α : Type} {s s' : ParseState} {p : Parsed α s} {a : α}
    (h : p.out = (some a, s')) :
  s'.left < s.left
  := by
  obtain ⟨value, state, le, lt⟩ := p
  cases h
  apply lt rfl

namespace ParseState

variable {s : ParseState} {tok : Token} {rest : List Token} {k : TokenKind}

/-- The state after taking the token `tok`, with `rest` after it. -/
def advance (s : ParseState) (tok : Token) (rest : List Token) : ParseState :=
  { s with rest, last := tok.span, taken := s.taken + 1 }

theorem peek_nil (h : s.rest = []) :
  s.peek = ⟨.eof, s.endSpan, []⟩
  := by
  rw [peek, h]
  rfl

theorem peek_cons (h : s.rest = tok :: rest) :
  s.peek = tok
  := by
  rw [peek, h]
  rfl

theorem peek_of_next (h : Grammar.next s.rest = some k) :
  s.peek.kind = k
  := by
  cases hrest : s.rest with
  | nil =>
      rw [hrest] at h
      cases h
  | cons tok rest =>
      rw [hrest] at h
      cases h
      rw [peek_cons hrest]

theorem isAt_of_eq (h : s.rest = tok :: rest) (hk : tok.kind = k) :
  s.isAt k = true
  := by
  rw [isAt, peek_cons h, hk, beq_self_eq_true]

theorem isAt_of_ne (h : s.rest = tok :: rest) (hk : tok.kind ≠ k) :
  s.isAt k = false
  := by
  rw [isAt, peek_cons h, beq_eq_false_iff_ne]
  apply hk

theorem next?_nil (h : s.rest = []) :
  s.next? = none
  := by
  unfold next?
  split
  · rfl
  · next heq =>
    rw [h] at heq
    cases heq

theorem left_advance_lt (h : s.rest = tok :: rest) :
  (s.advance tok rest).left < s.left
  := by
  rw [left, left, h]
  apply Nat.lt_succ_self

theorem next?_cons (h : s.rest = tok :: rest) :
  s.next? = some (tok, ⟨s.advance tok rest, left_advance_lt h⟩)
  := by
  unfold next?
  split
  · next heq =>
    rw [h] at heq
    cases heq
  · next heq =>
    rw [h] at heq
    cases heq
    rfl

/-- Takes the next token if it is of the given kind. -/
def took? (s : ParseState) (k : TokenKind) : Option (Token × ParseState) :=
  (s.take? k).map fun (tok, s') => (tok, s'.val)

theorem took?_nil (h : s.rest = []) :
  s.took? k = none
  := by
  rw [took?, take?, next?_nil h, ite_self]
  rfl

theorem took?_of_eq (h : s.rest = tok :: rest) (hk : tok.kind = k) :
  s.took? k = some (tok, s.advance tok rest)
  := by
  rw [took?, take?, isAt_of_eq h hk, next?_cons h]
  rfl

theorem took?_of_ne (h : s.rest = tok :: rest) (hk : tok.kind ≠ k) :
  s.took? k = none
  := by
  rw [took?, take?, isAt_of_ne h hk]
  rfl

theorem took?_of_next (h : Grammar.next s.rest ≠ some k) :
  s.took? k = none
  := by
  cases hrest : s.rest with
  | nil => apply took?_nil hrest
  | cons tok rest =>
      apply took?_of_ne hrest
      rintro rfl
      rw [hrest] at h
      contradiction

/-- The state after an optional token. -/
def past (s : ParseState) (k : TokenKind) : ParseState :=
  match s.took? k with
  | some (_, s') => s'
  | none => s

theorem skipOptional_val (s : ParseState) (k : TokenKind) :
  (s.skipOptional k).val = s.past k
  := by
  rw [skipOptional, past, took?]
  cases s.take? k with
  | none => rfl
  | some r => rfl

/-! ### What later states have in common -/

/-- The findings are syntax findings, and if errors were counted then the first finding is one. -/
structure Reported (s : ParseState) : Prop where
  codes : ∀ r ∈ s.reports.toList, Code.area? r.diagnostic.code.number = some "SYN"
  first : s.errors = 0 ∧ s.reports = #[]
    ∨ 0 < s.errors ∧ ∃ r rs, s.reports.toList = r :: rs ∧ r.diagnostic.severity = .error

/-- The state `s'` is reached from `s` by taking tokens and counting errors, each of which is
reported unless the options say otherwise. -/
structure Later (o : ParseOptions) (s s' : ParseState) : Prop where
  rest : s'.rest <:+ s.rest
  errors : s.errors ≤ s'.errors
  reports : o.maxErrors = 0 → o.silent = false →
    s'.reports.size + s.errors = s.reports.size + s'.errors
  reported : o.silent = false → s.Reported → s'.Reported

namespace Later

variable {o : ParseOptions} {s s' s₂ : ParseState}

/-- States that agree where it matters. -/
theorem of_eq (hrest : s'.rest = s.rest) (herrors : s'.errors = s.errors)
    (hreports : s'.reports = s.reports) :
  s.Later o s'
  := by
  refine ⟨hrest ▸ List.suffix_refl _, Nat.le_of_eq herrors.symm, fun _ _ => ?_, fun _ h => ?_⟩
  · rw [herrors, hreports]
  · constructor
    · rw [hreports]
      apply h.codes
    · rw [herrors, hreports]
      apply h.first

theorem refl (s : ParseState) :
  s.Later o s
  := of_eq rfl rfl rfl

theorem trans (h : s.Later o s') (h' : s'.Later o s₂) :
  s.Later o s₂
  := by
  refine ⟨h'.rest.trans h.rest, Nat.le_trans h.errors h'.errors, fun hmax hsilent => ?_,
    fun hsilent hs => h'.reported hsilent (h.reported hsilent hs)⟩
  have hsum := h.reports hmax hsilent
  have hsum' := h'.reports hmax hsilent
  omega

theorem left_le (h : s.Later o s') :
  s'.left ≤ s.left
  := h.rest.length_le

end Later

variable {o : ParseOptions}

theorem later_advance (h : s.rest = tok :: rest) :
  s.Later o (s.advance tok rest)
  := by
  refine ⟨?_, Nat.le_refl _, fun _ _ => rfl, fun _ h => ⟨h.codes, h.first⟩⟩
  rw [h]
  apply List.suffix_cons

theorem later_next? {s' : { s' : ParseState // s'.left < s.left }} (h : s.next? = some (tok, s')) :
  s.Later o s'.val
  := by
  cases hrest : s.rest with
  | nil =>
      rw [next?_nil hrest] at h
      cases h
  | cons tok rest =>
      rw [next?_cons hrest] at h
      cases h
      apply later_advance hrest

theorem isEnough_of_unlimited (hmax : o.maxErrors = 0) (s : ParseState) :
  s.isEnough o = false
  := by
  rw [isEnough, hmax]
  rfl

/-- Every report counts as one error. -/
theorem errors_report (o : ParseOptions) (s : ParseState) (p : SyntaxProblem)
    (opened : Option Span) :
  (s.report o p opened).errors = s.errors + 1
  := by
  unfold report
  dsimp only
  split
  · rfl
  · split <;> rfl

theorem reports_record (s : ParseState) (d : Diagnostic) :
  (s.record d).reports.toList = s.reports.toList ++ [⟨s.taken, d⟩]
  := by
  rw [record, Array.toList_push]

/-- What a report adds to the findings: nothing beyond the limit, and otherwise an error that may be
followed by the remark that parsing stops. -/
theorem reports_report (hsilent : o.silent = false) (s : ParseState) (p : SyntaxProblem)
    (opened : Option Span) :
  ∃ rs, (s.report o p opened).reports.toList = s.reports.toList ++ rs
    ∧ (∀ r ∈ rs, Code.area? r.diagnostic.code.number = some "SYN")
    ∧ (rs = [] ∧ 0 < s.errors ∨ ∃ r rs', rs = r :: rs' ∧ r.diagnostic.severity = .error)
  := by
  have hcode : Code.area? p.code.number = some "SYN" := by cases p <;> rfl
  unfold report
  dsimp only
  split
  · next h =>
    refine ⟨[], by simp, by simp, .inl ⟨rfl, ?_⟩⟩
    simp only [hsilent, Bool.false_or, Bool.and_eq_true, bne_iff_ne, decide_eq_true_eq] at h
    have hle : counter { s with errors := s.errors + 1 } ≤ s.errors + 1 := Nat.mod_le _ _
    omega
  · split
    · rw [reports_record, reports_record, List.append_assoc]
      refine ⟨_, rfl, ?_, .inr ⟨_, _, rfl, rfl⟩⟩
      rw [List.singleton_append, List.forall_mem_cons, List.forall_mem_singleton]
      exact ⟨hcode, rfl⟩
    · rw [reports_record]
      refine ⟨_, rfl, ?_, .inr ⟨_, _, rfl, rfl⟩⟩
      rw [List.forall_mem_singleton]
      apply hcode

theorem Reported.report (hsilent : o.silent = false) (h : s.Reported) (p : SyntaxProblem)
    (opened : Option Span) :
  (s.report o p opened).Reported
  := by
  obtain ⟨rs, hreports, hcodes, hrs⟩ := reports_report hsilent s p opened
  constructor
  · intro r hr
    rw [hreports, List.mem_append] at hr
    obtain hr | hr := hr
    · apply h.codes r hr
    · apply hcodes r hr
  · right
    rw [errors_report, hreports]
    use Nat.succ_pos _
    obtain ⟨herrors, hnone⟩ | ⟨-, r, rs', hsome, hr⟩ := h.first
    · obtain ⟨rfl, hpos⟩ | ⟨r, rs', rfl, hr⟩ := hrs
      · omega
      · exact ⟨r, rs', by rw [hnone]; rfl, hr⟩
    · exact ⟨r, rs' ++ rs, by rw [hsome]; rfl, hr⟩

theorem later_report (o : ParseOptions) (s : ParseState) (p : SyntaxProblem)
    (opened : Option Span) :
  s.Later o (s.report o p opened)
  := by
  refine ⟨?_, ?_, ?_, fun hsilent h => h.report hsilent p opened⟩
  · unfold report
    dsimp only
    split
    · apply List.suffix_refl
    · split <;> apply List.suffix_refl
  · rw [errors_report]
    apply Nat.le_succ
  · intro hmax hsilent
    simp [report, hmax, hsilent, record, isEnough]
    omega

end ParseState

namespace Parser

variable {o : ParseOptions} {s : ParseState} {tok : Token} {rest : List Token} {k : TokenKind}

theorem expect_out (p : SyntaxProblem) (opened : Option Span) :
  (expect o s k p opened).out
    = match s.took? k with
      | some (tok, s') => (some tok, s')
      | none => (none, s.report o p opened)
  := by
  rw [expect, ParseState.took?]
  cases s.take? k with
  | none => rfl
  | some r => rfl

theorem expect_of_eq (p : SyntaxProblem) (opened : Option Span) (h : s.rest = tok :: rest)
    (hk : tok.kind = k) :
  (expect o s k p opened).out = (some tok, s.advance tok rest)
  := by
  rw [expect_out, ParseState.took?_of_eq h hk]

/-! ### Expressions -/

theorem expr_out :
  (expr o s).out = (binary o 1 s).out
  := by
  rw [expr]

theorem binary_out (least : Nat) :
  (binary o least s).out = (unary o s).out.andThen fun id s' => (climb o least id s').out
  := by
  rw [binary]
  rcases unary o s with ⟨_ | id, s', le, lt⟩
  · rfl
  · rfl

theorem climb_stop {least : Nat} {id : ExprId}
    (h : ∀ op, BinaryOp.ofToken? s.peek.kind = some op → op.precedence < least) :
  (climb o least id s).out = (some id, s)
  := by
  rw [climb]
  cases hop : BinaryOp.ofToken? s.peek.kind with
  | none => rfl
  | some op =>
      dsimp only
      rw [if_pos (h op hop)]
      rfl

/-- Adds a binary operation. -/
def addBinary (op : BinaryOp) (left right : ExprId) (s : ParseState) : ExprId × ParseState :=
  s.addExpr ((s.tree.exprSpan left).cover (s.tree.exprSpan right)) (.binary op left right)

theorem climb_go {least : Nat} {id : ExprId} {op : BinaryOp} (h : s.rest = tok :: rest)
    (hop : BinaryOp.ofToken? tok.kind = some op) (hle : least ≤ op.precedence) :
  (climb o least id s).out
    = (binary o (op.precedence + 1) (s.advance tok rest)).out.andThen fun right s₂ =>
      (climb o least (addBinary op id right s₂).1 (addBinary op id right s₂).2).out
  := by
  rw [climb, ParseState.peek_cons h, hop]
  dsimp only
  rw [if_neg (Nat.not_lt.mpr hle), ParseState.next?_cons h]
  dsimp only
  rcases binary o (op.precedence + 1) (s.advance tok rest) with ⟨_ | right, s₂, le, lt⟩
  · rfl
  · rfl

theorem unary_primary (h : UnaryOp.ofToken? s.peek.kind = none) :
  (unary o s).out = (primary o s).out
  := by
  rw [unary, h]

/-- Adds a unary operation, whose operator stands at `start`. -/
def addUnary (start : Span) (op : UnaryOp) (operand : ExprId) (s : ParseState) :
    ExprId × ParseState :=
  s.addExpr (start.cover (s.tree.exprSpan operand)) (.unary op operand)

theorem unary_sign {op : UnaryOp} (h : s.rest = tok :: rest)
    (hop : UnaryOp.ofToken? tok.kind = some op) :
  (unary o s).out
    = (unary o (s.advance tok rest)).out.andThen fun operand s₂ =>
      (some (addUnary tok.span op operand s₂).1, (addUnary tok.span op operand s₂).2)
  := by
  rw [unary, ParseState.peek_cons h, hop, ParseState.next?_cons h]
  dsimp only
  rcases unary o (s.advance tok rest) with ⟨_ | operand, s₂, le, lt⟩
  · rfl
  · rfl

/-- The outcome of adding an expression. -/
def leaf (s : ParseState) (span : Span) (form : ExprForm) : Outcome ExprId :=
  (some (s.addExpr span form).1, (s.addExpr span form).2)

theorem primary_nil (h : s.rest = []) :
  (primary o s).out = (none, s.report o (.expression s.peek) none)
  := by
  rw [primary, ParseState.next?_nil h]
  rfl

theorem primary_literal {kind : LiteralKind} (h : s.rest = tok :: rest)
    (hk : Grammar.Constant tok.kind kind) :
  (primary o s).out = leaf (s.advance tok rest) tok.span (.literal kind tok.text)
  := by
  rw [primary, ParseState.next?_cons h]
  dsimp only
  generalize tok.kind = k at hk
  cases hk with
  | number | string | true | false => rfl

/-- A name without a parenthesis after it is a variable. -/
theorem primary_ident (h : s.rest = tok :: rest) (hk : tok.kind = .ident)
    (hnot : (s.advance tok rest).took? .lparen = none) :
  (primary o s).out = leaf (s.advance tok rest) tok.span (.ident tok.text)
  := by
  rw [primary, ParseState.next?_cons h]
  dsimp only
  rw [ParseState.took?, Option.map_eq_none_iff] at hnot
  rw [hk, hnot]
  rfl

/-- A name with a parenthesis after it is called. -/
theorem primary_call {opener : Token} (h : s.rest = tok :: opener :: rest) (hk : tok.kind = .ident)
    (hopen : opener.kind = .lparen) :
  (primary o s).out
    = (args o ((s.advance tok (opener :: rest)).advance opener rest)).out.andThen fun ids s₃ =>
      (expect o s₃ .rparen .argsClose (some opener.span)).out.andThen fun closer s₄ =>
        leaf s₄ (tok.span.cover closer.span) (.call tok.text tok.span ids)
  := by
  have htake : (s.advance tok (opener :: rest)).take? .lparen
      = some (opener, ⟨_, ParseState.left_advance_lt rfl⟩) := by
    rw [ParseState.take?, ParseState.isAt_of_eq rfl hopen, ParseState.next?_cons rfl]
    rfl
  rw [primary, ParseState.next?_cons h]
  dsimp only
  rw [hk, htake]
  dsimp only
  rcases args o ((s.advance tok (opener :: rest)).advance opener rest) with ⟨_ | ids, s₃, le⟩
  · rfl
  · dsimp only [Continued.out, andThen_some]
    rcases expect o s₃ .rparen .argsClose (some opener.span) with ⟨_ | closer, s₄, le₄, lt₄⟩
    · rfl
    · rfl

theorem primary_group (h : s.rest = tok :: rest) (hk : tok.kind = .lparen) :
  (primary o s).out
    = (expr o (s.advance tok rest)).out.andThen fun inner s₂ =>
      (expect o s₂ .rparen .groupClose (some tok.span)).out.andThen fun closer s₃ =>
        leaf s₃ (tok.span.cover closer.span) (.group inner)
  := by
  rw [primary, ParseState.next?_cons h]
  dsimp only
  rw [hk]
  dsimp only
  rcases expr o (s.advance tok rest) with ⟨_ | inner, s₂, le, lt⟩
  · rfl
  · dsimp only [Parsed.out, andThen_some]
    rcases expect o s₂ .rparen .groupClose (some tok.span) with ⟨_ | closer, s₃, le₃, lt₃⟩
    · rfl
    · rfl

/-- No expression starts with another token. -/
theorem primary_other (h : s.rest = tok :: rest) (hk : tok.kind.startsExpr = false)
    (hvalid : tok.kind ≠ .invalid) :
  (primary o s).out = (none, s.report o (.expression tok) none)
  := by
  rw [primary, ParseState.next?_cons h]
  dsimp only
  cases hkind : tok.kind with
  | invalid => contradiction
  | ident | number | string | kwTrue | kwFalse | lparen =>
      rw [hkind] at hk
      cases hk
  | _ => rfl

/-- An invalid token is taken without a finding. -/
theorem primary_invalid (h : s.rest = tok :: rest) (hk : tok.kind = .invalid) :
  (primary o s).out = (none, s.advance tok rest)
  := by
  rw [primary, ParseState.next?_cons h]
  dsimp only
  rw [hk]
  rfl

theorem args_none (h : s.isAt .rparen) :
  (args o s).out = (some [], s)
  := by
  rw [args, if_pos h]
  rfl

theorem args_some (h : s.isAt .rparen = false) :
  (args o s).out = (argList o s).out
  := by
  rw [args, if_neg (by simp [h])]
  rfl

theorem argList_out :
  (argList o s).out
    = (expr o s).out.andThen fun id s' =>
      match s'.took? .comma with
      | none => (some [id], s')
      | some (_, s₂) => (argList o s₂).out.andThen fun ids s₃ => (some (id :: ids), s₃)
  := by
  rw [argList]
  rcases expr o s with ⟨_ | id, s', le, lt⟩
  · rfl
  · dsimp only [Parsed.out, andThen_some, ParseState.took?]
    rcases s'.take? .comma with _ | ⟨comma, s₂, lt₂⟩
    · rfl
    · dsimp only [Option.map_some]
      rcases argList o s₂ with ⟨_ | ids, s₃, le₃, lt₃⟩
      · rfl
      · rfl

/-! ### Statements -/

/-- The outcome of adding a statement that ends with the last token taken. -/
def close (s : ParseState) (start : Span) (form : StmtForm) : Outcome StmtId :=
  (some (s.addStmt (start.cover s.last) form).1, (s.addStmt (start.cover s.last) form).2)

/-- The outcome of adding a statement after its optional semicolon. -/
def closeLine (s : ParseState) (start : Span) (form : StmtForm) : Outcome StmtId :=
  close (s.past .semicolon) start form

theorem finish_out {s' : ParseState} (start : Span) (form : StmtForm) (h : s'.left < s.left) :
  (finish s s' start form h).out = close s' start form
  := rfl

theorem finishLine_out {s' : ParseState} (start : Span) (form : StmtForm) (h : s'.left < s.left) :
  (finishLine s s' start form h).out = closeLine s' start form
  := by
  rw [finishLine, finish_out, ParseState.skipOptional_val]
  rfl

theorem letStmt_out (start : Span) :
  (letStmt o s start).out
    = (expect o s .ident .variableName none).out.andThen fun name s' =>
      (expect o s' .assign .assignSign none).out.andThen fun _ s₂ =>
      (expr o s₂).out.andThen fun value s₃ =>
        closeLine s₃ start (.letVar name.text name.span value)
  := by
  rw [letStmt]
  rcases expect o s .ident .variableName none with ⟨_ | name, s', le, lt⟩
  · rfl
  · dsimp only [Parsed.out, andThen_some]
    rcases expect o s' .assign .assignSign none with ⟨_ | eq, s₂, le₂, lt₂⟩
    · rfl
    · dsimp only [andThen_some]
      rcases expr o s₂ with ⟨_ | value, s₃, le₃, lt₃⟩
      · rfl
      · apply finishLine_out

/-- After an expression and `=`, only a name can be assigned to. -/
def assignTo (o : ParseOptions) (start : Span) (id : ExprId) (s s₂ : ParseState) :
    Outcome StmtId :=
  match s.tree.expr? id with
  | some ⟨nameSpan, .ident name⟩ =>
    (expr o s₂).out.andThen fun value s₃ => closeLine s₃ start (.assign name nameSpan value)
  | _ => (none, s.report o .assignTarget none)

theorem exprStmt_out :
  (exprStmt o s).out
    = (expr o s).out.andThen fun id s' =>
      match s'.took? .assign with
      | none => closeLine s' s.peek.span (.expr id)
      | some (_, s₂) => assignTo o s.peek.span id s' s₂
  := by
  rw [exprStmt]
  rcases expr o s with ⟨_ | id, s', le, lt⟩
  · rfl
  · dsimp only [Parsed.out, andThen_some, ParseState.took?]
    rcases s'.take? .assign with _ | ⟨eq, s₂, lt₂⟩
    · apply finishLine_out
    · dsimp only [Option.map_some, assignTo]
      rcases s'.tree.expr? id with _ | ⟨nameSpan, form⟩
      · rfl
      · cases form with
        | ident name =>
            dsimp only
            rcases expr o s₂ with ⟨_ | value, s₃, le₃, lt₃⟩
            · rfl
            · apply finishLine_out
        | _ => rfl

theorem returnStmt_value {s₀ : ParseState} (start : Span) (h : s.left < s₀.left)
    (hs : s.peek.kind.startsExpr) :
  (returnStmt o s start s₀ h).out
    = (expr o s).out.andThen fun value s' => closeLine s' start (.ret value)
  := by
  rw [returnStmt, if_pos hs]
  rcases expr o s with ⟨_ | value, s', le, lt⟩
  · rfl
  · apply finishLine_out

theorem returnStmt_bare {s₀ : ParseState} (start : Span) (h : s.left < s₀.left)
    (hs : s.peek.kind.startsExpr = false) :
  (returnStmt o s start s₀ h).out = closeLine s start (.ret 0)
  := by
  rw [returnStmt, if_neg (by simp [hs])]
  apply finishLine_out

theorem printStmt_out (start : Span) :
  (printStmt o s start).out
    = (expr o s).out.andThen fun value s' => closeLine s' start (.print value)
  := by
  rw [printStmt]
  rcases expr o s with ⟨_ | value, s', le, lt⟩
  · rfl
  · apply finishLine_out

theorem condition_out (keyword : Text) :
  (condition o s keyword).out
    = (expect o s .lparen (.condOpen keyword) none).out.andThen fun opener s' =>
      (expr o s').out.andThen fun cond s₂ =>
      (expect o s₂ .rparen .condClose (some opener.span)).out.andThen fun _ s₃ => (some cond, s₃)
  := by
  rw [condition]
  rcases expect o s .lparen (.condOpen keyword) none with ⟨_ | opener, s', le, lt⟩
  · rfl
  · dsimp only [Parsed.out, andThen_some]
    rcases expr o s' with ⟨_ | cond, s₂, le₂, lt₂⟩
    · rfl
    · dsimp only [andThen_some]
      rcases expect o s₂ .rparen .condClose (some opener.span) with ⟨_ | closer, s₃, le₃, lt₃⟩
      · rfl
      · rfl

theorem paramList_out :
  (paramList o s).out
    = (expect o s .ident .paramName none).out.andThen fun name s' =>
      match s'.took? .comma with
      | none => (some [⟨name.text, name.span⟩], s')
      | some (_, s₂) => (paramList o s₂).out.andThen fun ps s₃ =>
          (some (⟨name.text, name.span⟩ :: ps), s₃)
  := by
  rw [paramList]
  rcases expect o s .ident .paramName none with ⟨_ | name, s', le, lt⟩
  · rfl
  · dsimp only [Parsed.out, andThen_some, ParseState.took?]
    rcases s'.take? .comma with _ | ⟨comma, s₂, lt₂⟩
    · rfl
    · dsimp only [Option.map_some]
      rcases paramList o s₂ with ⟨_ | ps, s₃, le₃, lt₃⟩
      · rfl
      · rfl

/-- The parameters of a function, up to the closing parenthesis. -/
def params (o : ParseOptions) (s : ParseState) : Outcome (List Param) :=
  if s.isAt .rparen then (some [], s) else (paramList o s).out

theorem signature_out :
  (signature o s).out
    = (expect o s .ident .functionName none).out.andThen fun name s' =>
      (expect o s' .lparen .paramsOpen none).out.andThen fun _ s₂ =>
      (params o s₂).andThen fun ps s₃ =>
      (expect o s₃ .rparen .paramsClose none).out.andThen fun _ s₄ => (some (name, ps), s₄)
  := by
  rw [signature]
  rcases expect o s .ident .functionName none with ⟨_ | name, s', le, lt⟩
  · rfl
  · dsimp only [Parsed.out, andThen_some]
    rcases expect o s' .lparen .paramsOpen none with ⟨_ | opener, s₂, le₂, lt₂⟩
    · rfl
    · dsimp only [andThen_some]
      have hparams : ∀ c : Continued (List Param) s₂,
          c = (if s₂.isAt .rparen then ⟨some [], s₂, Nat.le_refl _⟩
            else ⟨(paramList o s₂).value, (paramList o s₂).state, (paramList o s₂).le⟩) →
          params o s₂ = c.out := by
        rintro c rfl
        rw [params]
        split
        · rfl
        · rfl
      generalize hc : (if s₂.isAt .rparen then _ else _ : Continued (List Param) s₂) = c
      rw [hparams c hc.symm]
      rcases c with ⟨_ | ps, s₃, le₃⟩
      · rfl
      · dsimp only [Continued.out, andThen_some]
        rcases expect o s₃ .rparen .paramsClose none with ⟨_ | closer, s₄, le₄, lt₄⟩
        · rfl
        · rfl

theorem block_out :
  (block o s).out
    = (expect o s .lbrace .blockOpen none).out.andThen fun opener s' =>
      (expect o (stmtList o .rbrace s').val.2 .rbrace .blockClose (some opener.span)).out.andThen
        fun _ s₂ => (some (stmtList o .rbrace s').val.1, s₂)
  := by
  rw [block]
  rcases expect o s .lbrace .blockOpen none with ⟨_ | opener, s', le, lt⟩
  · rfl
  · dsimp only [Parsed.out, andThen_some]
    rcases expect o (stmtList o .rbrace s').val.2 .rbrace .blockClose (some opener.span) with
      ⟨_ | closer, s₂, le₂, lt₂⟩
    · rfl
    · rfl

/-! ### Statements by their first token -/

theorem stmt_let (h : s.rest = tok :: rest) (hk : tok.kind = .kwLet) :
  (stmt o s).out = (letStmt o (s.advance tok rest) tok.span).out
  := by
  rw [stmt, ParseState.peek_cons h, hk, ParseState.next?_cons h]
  rfl

theorem stmt_if (h : s.rest = tok :: rest) (hk : tok.kind = .kwIf) :
  (stmt o s).out
    = (condition o (s.advance tok rest) "if").out.andThen fun cond s₂ =>
      (block o s₂).out.andThen fun thenBody s₃ =>
      match s₃.took? .kwElse with
      | none => close s₃ tok.span (.ifElse cond thenBody [] false)
      | some (_, s₄) => (block o s₄).out.andThen fun elseBody s₅ =>
          close s₅ tok.span (.ifElse cond thenBody elseBody true)
  := by
  rw [stmt, ParseState.peek_cons h, hk, ParseState.next?_cons h]
  dsimp only
  rcases condition o (s.advance tok rest) "if" with ⟨_ | cond, s₂, le₂, lt₂⟩
  · rfl
  · dsimp only [Parsed.out, andThen_some]
    rcases block o s₂ with ⟨_ | thenBody, s₃, le₃, lt₃⟩
    · rfl
    · dsimp only [andThen_some, ParseState.took?]
      rcases s₃.take? .kwElse with _ | ⟨kw, s₄, lt₄⟩
      · rfl
      · dsimp only [Option.map_some]
        rcases block o s₄ with ⟨_ | elseBody, s₅, le₅, lt₅⟩
        · rfl
        · rfl

theorem stmt_while (h : s.rest = tok :: rest) (hk : tok.kind = .kwWhile) :
  (stmt o s).out
    = (condition o (s.advance tok rest) "while").out.andThen fun cond s₂ =>
      (block o s₂).out.andThen fun body s₃ => close s₃ tok.span (.while cond body)
  := by
  rw [stmt, ParseState.peek_cons h, hk, ParseState.next?_cons h]
  dsimp only
  rcases condition o (s.advance tok rest) "while" with ⟨_ | cond, s₂, le₂, lt₂⟩
  · rfl
  · dsimp only [Parsed.out, andThen_some]
    rcases block o s₂ with ⟨_ | body, s₃, le₃, lt₃⟩
    · rfl
    · rfl

theorem stmt_function (h : s.rest = tok :: rest) (hk : tok.kind = .kwFunction) :
  (stmt o s).out
    = (signature o (s.advance tok rest)).out.andThen fun sig s₂ =>
      (block o s₂).out.andThen fun body s₃ =>
        close s₃ tok.span (.function sig.1.text sig.1.span sig.2 body)
  := by
  rw [stmt, ParseState.peek_cons h, hk, ParseState.next?_cons h]
  dsimp only
  rcases signature o (s.advance tok rest) with ⟨_ | sig, s₂, le₂, lt₂⟩
  · rfl
  · dsimp only [Parsed.out, andThen_some]
    rcases block o s₂ with ⟨_ | body, s₃, le₃, lt₃⟩
    · rfl
    · rfl

theorem stmt_return (h : s.rest = tok :: rest) (hk : tok.kind = .kwReturn) :
  (stmt o s).out
    = (returnStmt o (s.advance tok rest) tok.span s (ParseState.left_advance_lt h)).out
  := by
  rw [stmt, ParseState.peek_cons h, hk, ParseState.next?_cons h]

theorem stmt_print (h : s.rest = tok :: rest) (hk : tok.kind = .kwPrint) :
  (stmt o s).out = (printStmt o (s.advance tok rest) tok.span).out
  := by
  rw [stmt, ParseState.peek_cons h, hk, ParseState.next?_cons h]
  rfl

/-- A statement that starts with no keyword is an expression or an assignment. -/
theorem stmt_expr (h : isBoundary s.peek.kind → s.peek.kind = .rbrace) :
  (stmt o s).out = (exprStmt o s).out
  := by
  rw [stmt]
  cases hk : s.peek.kind with
  | kwLet | kwIf | kwWhile | kwFunction | kwReturn | kwPrint =>
      rw [hk] at h
      cases h rfl
  | _ => rfl

theorem later_skipToBoundary (s : ParseState) :
  s.Later o (skipToBoundary s).val
  := by
  fun_induction skipToBoundary s with
  | case1 | case2 => apply ParseState.Later.refl
  | case3 _ _ _ _ _ hnext => apply ParseState.later_next? hnext
  | case4 _ _ _ _ _ hnext _ _ ih => apply (ParseState.later_next? hnext).trans ih

theorem later_resync {s' : ParseState} (h : s'.left ≤ s.left) (pos : 0 < s.left) :
  s'.Later o (resync s s' h pos).val
  := by
  have hstuck : s'.Later o (skipStuck s s' h pos).val := by
    unfold skipStuck
    split
    · apply ParseState.Later.refl
    · split
      · next hnext => apply ParseState.later_next? hnext
      · apply ParseState.Later.refl
  apply hstuck.trans (later_skipToBoundary _)

theorem stmtList_end {stop : TokenKind} (h : s.rest = [] ∨ s.isAt stop) :
  (stmtList o stop s).val = ([], s)
  := by
  rw [stmtList, dif_pos]
  rwa [ParseState.left, List.length_eq_zero_iff]

theorem later_skipAll (s : ParseState) :
  s.Later o (skipAll s).val
  := by
  fun_induction skipAll s with
  | case1 => apply ParseState.Later.refl
  | case2 _ _ _ _ hnext _ ih => apply (ParseState.later_next? hnext).trans ih

section

variable {tok : Token} {rest : List Token}

theorem skipAll_nil (hs : s.rest = []) :
  (skipAll s).val = s
  := by
  rw [skipAll, ParseState.next?_nil hs]

theorem skipAll_cons (hs : s.rest = tok :: rest) :
  (skipAll s).val = (skipAll (s.advance tok rest)).val
  := by
  rw [skipAll, ParseState.next?_cons hs]

theorem skipToBoundary_boundary (h : isBoundary s.peek.kind) :
  (skipToBoundary s).val = s
  := by
  rw [skipToBoundary, if_pos h]

theorem skipToBoundary_nil (hs : s.rest = []) :
  (skipToBoundary s).val = s
  := by
  rw [skipToBoundary, ParseState.next?_nil hs]
  split <;> rfl

theorem skipToBoundary_cons (hs : s.rest = tok :: rest) (h : isBoundary s.peek.kind = false) :
  (skipToBoundary s).val
    = if tok.kind = .semicolon then s.advance tok rest
      else (skipToBoundary (s.advance tok rest)).val
  := by
  rw [skipToBoundary, if_neg (by simp [h]), ParseState.next?_cons hs]
  dsimp only
  split <;> rfl

end

/-- Whether a list of statements gives up before its next statement. -/
def givesUp (o : ParseOptions) (s : ParseState) : Bool := s.isCancelled o || s.isEnough o

section

variable {stop : TokenKind} {s' : ParseState}

theorem stmtList_stopped (hgo : givesUp o s) (hrest : s.rest ≠ []) (hstop : s.isAt stop = false) :
  (stmtList o stop s).val = ([], (skipAll s).val)
  := by
  rw [givesUp] at hgo
  rw [stmtList, dif_neg (by simp [ParseState.left, hrest, hstop]), if_pos hgo]

theorem stmtList_parsed {id : StmtId} (hgo : givesUp o s = false) (hrest : s.rest ≠ [])
    (hstop : s.isAt stop = false) (h : (stmt o s).out = (some id, s')) :
  (stmtList o stop s).val = (id :: (stmtList o stop s').val.1, (stmtList o stop s').val.2)
  := by
  rw [givesUp] at hgo
  rw [stmtList, dif_neg (by simp [ParseState.left, hrest, hstop]), if_neg (by simp [hgo])]
  generalize stmt o s = r at h ⊢
  obtain ⟨_ | id, s', le, lt⟩ := r
  · cases h
  · cases h
    rfl

theorem stmtList_failed (hgo : givesUp o s = false) (hrest : s.rest ≠ [])
    (hstop : s.isAt stop = false) (h : (stmt o s).out = (none, s')) :
  ∃ le pos, (stmtList o stop s).val = (stmtList o stop (resync s s' le pos).val).val
  := by
  rw [givesUp] at hgo
  rw [stmtList, dif_neg (by simp [ParseState.left, hrest, hstop]), if_neg (by simp [hgo])]
  generalize stmt o s = r at h ⊢
  obtain ⟨_ | id, s', le, lt⟩ := r
  · cases h
    exact ⟨le, List.length_pos_iff.mpr hrest, rfl⟩
  · cases h

/-- Beyond the limit on errors there are no further statements. -/
theorem stmtList_enough (henough : s.isEnough o = true) (hrest : s.rest ≠ [])
    (hstop : s.isAt stop = false) :
  (stmtList o stop s).val = ([], (skipAll s).val)
  := stmtList_stopped (by simp [givesUp, henough]) hrest hstop

theorem givesUp_eq_false (henough : s.isEnough o = false) (hcancel : o.cancelled = false) :
  givesUp o s = false
  := by
  simp [givesUp, henough, ParseState.isCancelled, hcancel]

/-- A statement that parses is the first of the statements. -/
theorem stmtList_some {id : StmtId} (henough : s.isEnough o = false)
    (hcancel : o.cancelled = false) (hrest : s.rest ≠ []) (hstop : s.isAt stop = false)
    (h : (stmt o s).out = (some id, s')) :
  (stmtList o stop s).val = (id :: (stmtList o stop s').val.1, (stmtList o stop s').val.2)
  := stmtList_parsed (givesUp_eq_false henough hcancel) hrest hstop h

/-- After a statement that does not parse the statements go on further on. -/
theorem stmtList_none (henough : s.isEnough o = false) (hcancel : o.cancelled = false)
    (hrest : s.rest ≠ []) (hstop : s.isAt stop = false) (h : (stmt o s).out = (none, s')) :
  ∃ s₂, s₂.left < s.left ∧ s'.Later o s₂ ∧ (stmtList o stop s).val = (stmtList o stop s₂).val
  := by
  obtain ⟨le, pos, hlist⟩ :=
    stmtList_failed (givesUp_eq_false henough hcancel) hrest hstop h
  exact ⟨_, (resync s s' le pos).property, later_resync le pos, hlist⟩

end

end Parser

end ThreeAddress
