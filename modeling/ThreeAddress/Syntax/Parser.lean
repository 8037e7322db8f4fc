import ThreeAddress.Syntax.Problem
import ThreeAddress.Syntax.Tree
import ThreeAddress.Token.Lexer
import ThreeAddress.Word

/-!
# Parsing

A recursive descent over the tokens of a file, with precedence climbing for binary operators.  A
statement that does not parse is reported and skipped up to the next place where a statement can
start.  Every parser returns a state with no more tokens left than before, and with fewer if it
succeeds; this is why the descent ends.
-/

namespace ThreeAddress

/-- How a file is parsed: findings beyond `maxErrors` are not reported (`0` means no limit),
`silent` reports none, and a cancelled parse stops before the next statement.  It may be cancelled
only on its way, when `cancelledAfter` tokens have been taken. -/
structure ParseOptions where
  maxErrors : Nat := 0
  silent : Bool := false
  cancelled : Bool := false
  cancelledAfter : Nat := 0
deriving Repr

/-- A finding, with the number of tokens taken before it was made. -/
structure Report where
  taken : Nat
  diagnostic : Diagnostic
deriving DecidableEq, Repr

/-- The tokens left, the nodes built and the findings made so far.  All errors are counted in
`errors`; what a parse looks at is the word that counts them, `ParseState.counter`. -/
structure ParseState where
  rest : List Token
  endSpan : Span
  last : Span
  taken : Nat := 0
  tree : Tree := {}
  errors : Nat := 0
  reports : Array Report := #[]

namespace ParseState

/-- The number of tokens left. -/
def left (s : ParseState) : Nat := s.rest.length

/-- The next token; past the last one stands the end of the file. -/
def peek (s : ParseState) : Token := s.rest.headD ⟨.eof, s.endSpan, []⟩

/-- Whether the next token is of the given kind. -/
def isAt (s : ParseState) (k : TokenKind) : Bool := s.peek.kind == k

/-- Takes the next token, if there is one. -/
def next? (s : ParseState) : Option (Token × { s' : ParseState // s'.left < s.left }) :=
  match h : s.rest with
  | [] => none
  | tok :: rest =>
    some (tok, ⟨{ s with rest, last := tok.span, taken := s.taken + 1 }, by simp [left, h]⟩)

/-- No token can be taken only if none is left. -/
theorem left_eq_zero_of_next? {s : ParseState} (h : s.next? = none) :
  s.left = 0
  := by
  unfold next? at h
  split at h
  · next hr => simp [left, hr]
  · simp at h

/-- Takes the next token if it is of the given kind. -/
def take? (s : ParseState) (k : TokenKind) :
    Option (Token × { s' : ParseState // s'.left < s.left }) :=
  if s.isAt k then s.next? else none

/-- Takes the next token if it is of the given kind. -/
def skipOptional (s : ParseState) (k : TokenKind) : { s' : ParseState // s'.left ≤ s.left } :=
  match s.take? k with
  | some (_, s') => ⟨s'.val, Nat.le_of_lt s'.property⟩
  | none => ⟨s, Nat.le_refl _⟩

/-- Where a finding points: at the next token, or just after the last one at the end of the
file. -/
def findingSpan (s : ParseState) : Span :=
  if s.isAt .eof && decide (0 < s.last.stop) then ⟨s.last.file, s.last.stop, s.last.stop⟩
  else s.peek.span

/-- The word that counts the errors, which wraps around. -/
def counter (s : ParseState) : Nat := s.errors % Word.count

/-- Whether the limit on findings is reached. -/
def isEnough (o : ParseOptions) (s : ParseState) : Bool :=
  o.maxErrors != 0 && decide (o.maxErrors ≤ s.counter)

/-- Whether the parse has been cancelled. -/
def isCancelled (o : ParseOptions) (s : ParseState) : Bool :=
  o.cancelled && decide (o.cancelledAfter ≤ s.taken)

/-- Records a finding. -/
def record (s : ParseState) (d : Diagnostic) : ParseState :=
  { s with reports := s.reports.push ⟨s.taken, d⟩ }

/-- Counts a finding, and records it if the limit permits; the finding that reaches the limit is
followed by the remark that parsing stops. -/
def report (o : ParseOptions) (s : ParseState) (p : SyntaxProblem) (opened : Option Span) :
    ParseState :=
  let s := { s with errors := s.errors + 1 }
  if o.silent || (o.maxErrors != 0 && decide (o.maxErrors < s.counter)) then s
  else
    let span := s.findingSpan
    let notes := opened.toList.map fun sp => ⟨sp, "opened here"⟩
    let s := s.record { severity := .error, code := p.code, span, message := p.message, notes }
    if s.isEnough o then
      s.record
        { severity := .info, code := .tooManyErrors, span
          message := "too many errors, parsing stopped" }
    else s

/-- Reporting takes no token. -/
@[simp]
theorem left_report (o : ParseOptions) (s : ParseState) (p : SyntaxProblem) (opened : Option Span) :
  (s.report o p opened).left = s.left
  := by
  unfold report
  dsimp only
  split
  · rfl
  · split <;> rfl

/-- Adds an expression to the tree. -/
def addExpr (s : ParseState) (span : Span) (form : ExprForm) : ExprId × ParseState :=
  let (tree, id) := s.tree.addExpr span form
  (id, { s with tree })

/-- Adds a statement to the tree. -/
def addStmt (s : ParseState) (span : Span) (form : StmtForm) : StmtId × ParseState :=
  let (tree, id) := s.tree.addStmt span form
  (id, { s with tree })

@[simp]
theorem left_addExpr (s : ParseState) (span : Span) (form : ExprForm) :
  (s.addExpr span form).2.left = s.left
  := rfl

@[simp]
theorem left_addStmt (s : ParseState) (span : Span) (form : StmtForm) :
  (s.addStmt span form).2.left = s.left
  := rfl

end ParseState

/-- The outcome of a parser started in state `s`: a value or a failure, and a state with no more
tokens left, and fewer after a success. -/
structure Parsed (α : Type) (s : ParseState) where
  value : Option α
  state : ParseState
  le : state.left ≤ s.left
  lt : value.isSome → state.left < s.left

/-- The outcome of a parser that may succeed without taking a token. -/
structure Continued (α : Type) (s : ParseState) where
  value : Option α
  state : ParseState
  le : state.left ≤ s.left

namespace Parsed

variable {α : Type} {s : ParseState}

/-- A failure in a later state. -/
def fail (s' : ParseState) (h : s'.left ≤ s.left) : Parsed α s := ⟨none, s', h, by simp⟩

/-- A success in a state with fewer tokens left. -/
def done (a : α) (s' : ParseState) (h : s'.left < s.left) : Parsed α s :=
  ⟨some a, s', Nat.le_of_lt h, fun _ => h⟩

/-- The same outcome, seen from an earlier state. -/
def since {s' : ParseState} (p : Parsed α s') (h : s'.left ≤ s.left) : Parsed α s :=
  ⟨p.value, p.state, Nat.le_trans p.le h, fun hv => Nat.lt_of_lt_of_le (p.lt hv) h⟩

/-- The outcome of what follows a success, seen from the state before both. -/
def ofContinued {s' : ParseState} (c : Continued α s') (h : s'.left < s.left) : Parsed α s :=
  ⟨c.value, c.state, Nat.le_of_lt (Nat.lt_of_le_of_lt c.le h),
    fun _ => Nat.lt_of_le_of_lt c.le h⟩

end Parsed

namespace Parser

variable (o : ParseOptions)

/-- Takes a token of the given kind, or reports the problem. -/
def expect (s : ParseState) (k : TokenKind) (p : SyntaxProblem) (opened : Option Span) :
    Parsed Token s :=
  match s.take? k with
  | some (tok, s') => .done tok s'.val s'.property
  | none => .fail (s.report o p opened) (by simp)

/-! ### Expressions -/

mutual

/-- An expression. -/
def expr (s : ParseState) : Parsed ExprId s := binary 1 s
termination_by (s.left, 4)

/-- An operand and the operators after it that bind at least as strongly as `least`. -/
def binary (least : Nat) (s : ParseState) : Parsed ExprId s :=
  match unary s with
  | ⟨none, s', le, _⟩ => .fail s' le
  | ⟨some leftId, s', _, lt⟩ => .ofContinued (climb least leftId s') (lt rfl)
termination_by (s.left, 3)
decreasing_by
  · exact Prod.Lex.right _ (by omega)
  · exact Prod.Lex.left _ _ (lt rfl)

/-- Extends the operand `leftId` by operators that bind at least as strongly as `least`; operators
of one level associate to the left. -/
def climb (least : Nat) (leftId : ExprId) (s : ParseState) : Continued ExprId s :=
  match BinaryOp.ofToken? s.peek.kind with
  | none => ⟨some leftId, s, Nat.le_refl _⟩
  | some op =>
    if op.precedence < least then ⟨some leftId, s, Nat.le_refl _⟩
    else match s.next? with
      | none => ⟨some leftId, s, Nat.le_refl _⟩
      | some (_, ⟨s', lt⟩) =>
        match binary (op.precedence + 1) s' with
        | ⟨none, s₂, le, _⟩ => ⟨none, s₂, by omega⟩
        | ⟨some rightId, s₂, le, _⟩ =>
          let span := (s₂.tree.exprSpan leftId).cover (s₂.tree.exprSpan rightId)
          let r := s₂.addExpr span (.binary op leftId rightId)
          match climb least r.1 r.2 with
          | ⟨value, s₃, le₃⟩ => ⟨value, s₃, by
              have h : r.2.left = s₂.left := rfl
              omega⟩
termination_by (s.left, 0)
decreasing_by
  · exact Prod.Lex.left _ _ lt
  · refine Prod.Lex.left _ _ ?_
    rw [ParseState.left_addExpr]
    omega

/-- An operand, with the unary operators before it. -/
def unary (s : ParseState) : Parsed ExprId s :=
  match UnaryOp.ofToken? s.peek.kind, s.next? with
  | some op, some (opTok, ⟨s', lt⟩) =>
    match unary s' with
    | ⟨none, s₂, le, _⟩ => .fail s₂ (by omega)
    | ⟨some operand, s₂, le, _⟩ =>
      let span := opTok.span.cover (s₂.tree.exprSpan operand)
      let r := s₂.addExpr span (.unary op operand)
      .done r.1 r.2 (by
        have h : r.2.left = s₂.left := rfl
        omega)
  | _, _ => primary s
termination_by (s.left, 2)
decreasing_by
  · exact Prod.Lex.left _ _ lt
  · exact Prod.Lex.right _ (by omega)

/-- A literal, a name, a call or an expression in parentheses.  An invalid token is skipped
without a finding, since the lexer has made one. -/
def primary (s : ParseState) : Parsed ExprId s :=
  match s.next? with
  | none => .fail (s.report o (.expression s.peek) none) (by simp)
  | some (tok, ⟨s', lt⟩) =>
    let leaf (form : ExprForm) : Parsed ExprId s :=
      .done (s'.addExpr tok.span form).1 (s'.addExpr tok.span form).2 lt
    match tok.kind with
    | .number => leaf (.literal .number tok.text)
    | .string => leaf (.literal .string tok.text)
    | .kwTrue | .kwFalse => leaf (.literal .boolean tok.text)
    | .ident =>
      match s'.take? .lparen with
      | none => leaf (.ident tok.text)
      | some (opener, ⟨s₂, lt₂⟩) =>
        match args s₂ with
        | ⟨none, s₃, le₃⟩ => .fail s₃ (by omega)
        | ⟨some ids, s₃, le₃⟩ =>
          match expect o s₃ .rparen .argsClose (some opener.span) with
          | ⟨none, s₄, le₄, _⟩ => .fail s₄ (by omega)
          | ⟨some closer, s₄, le₄, _⟩ =>
            let r := s₄.addExpr (tok.span.cover closer.span) (.call tok.text tok.span ids)
            .done r.1 r.2 (by
              have h : r.2.left = s₄.left := rfl
              omega)
    | .lparen =>
      match expr s' with
      | ⟨none, s₂, le₂, _⟩ => .fail s₂ (by omega)
      | ⟨some inner, s₂, le₂, _⟩ =>
        match expect o s₂ .rparen .groupClose (some tok.span) with
        | ⟨none, s₃, le₃, _⟩ => .fail s₃ (by omega)
        | ⟨some closer, s₃, le₃, _⟩ =>
          let r := s₃.addExpr (tok.span.cover closer.span) (.group inner)
          .done r.1 r.2 (by
            have h : r.2.left = s₃.left := rfl
            omega)
    | .invalid => .fail s' (Nat.le_of_lt lt)
    | _ => .fail (s.report o (.expression tok) none) (by simp)
termination_by (s.left, 1)
decreasing_by
  · exact Prod.Lex.left _ _ (by omega)
  · exact Prod.Lex.left _ _ lt

/-- The arguments of a call, up to the closing parenthesis. -/
def args (s : ParseState) : Continued (List ExprId) s :=
  if s.isAt .rparen then ⟨some [], s, Nat.le_refl _⟩
  else
    let r := argList s
    ⟨r.value, r.state, r.le⟩
termination_by (s.left, 6)
decreasing_by exact Prod.Lex.right _ (by omega)

/-- One or more arguments, separated by commas. -/
def argList (s : ParseState) : Parsed (List ExprId) s :=
  match expr s with
  | ⟨none, s', le, _⟩ => .fail s' le
  | ⟨some id, s', _, lt⟩ =>
    match s'.take? .comma with
    | none => .done [id] s' (lt rfl)
    | some (_, ⟨s₂, lt₂⟩) =>
      match argList s₂ with
      | ⟨none, s₃, le₃, _⟩ => .fail s₃ (by have := lt rfl; omega)
      | ⟨some ids, s₃, le₃, _⟩ => .done (id :: ids) s₃ (by have := lt rfl; omega)
termination_by (s.left, 5)
decreasing_by
  · exact Prod.Lex.right _ (by omega)
  · exact Prod.Lex.left _ _ (by have := lt rfl; omega)

end

/-! ### Statements -/

/-- Adds a statement that ends with the last token taken. -/
def finish (s s' : ParseState) (start : Span) (form : StmtForm) (h : s'.left < s.left) :
    Parsed StmtId s :=
  let r := s'.addStmt (start.cover s'.last) form
  .done r.1 r.2 h

/-- A statement whose optional semicolon is still to be taken. -/
def finishLine (s s' : ParseState) (start : Span) (form : StmtForm) (h : s'.left < s.left) :
    Parsed StmtId s :=
  let e := s'.skipOptional .semicolon
  finish s e.val start form (Nat.lt_of_le_of_lt e.property h)

/-- The rest of a declaration after its `let`. -/
def letStmt (s : ParseState) (start : Span) : Parsed StmtId s :=
  match expect o s .ident .variableName none with
  | ⟨none, s', le, _⟩ => .fail s' le
  | ⟨some name, s', le, _⟩ =>
    match expect o s' .assign .assignSign none with
    | ⟨none, s₂, le₂, _⟩ => .fail s₂ (by omega)
    | ⟨some _, s₂, le₂, _⟩ =>
      match expr o s₂ with
      | ⟨none, s₃, le₃, _⟩ => .fail s₃ (by omega)
      | ⟨some value, s₃, _, lt₃⟩ =>
        finishLine s s₃ start (.letVar name.text name.span value) (by have := lt₃ rfl; omega)

/-- An expression, or an assignment if the expression is a bare name and `=` follows. -/
def exprStmt (s : ParseState) : Parsed StmtId s :=
  let start := s.peek.span
  match expr o s with
  | ⟨none, s', le, _⟩ => .fail s' le
  | ⟨some id, s', _, lt⟩ =>
    match s'.take? .assign with
    | none => finishLine s s' start (.expr id) (lt rfl)
    | some (_, ⟨s₂, lt₂⟩) =>
      match s'.tree.expr? id with
      | some ⟨nameSpan, .ident name⟩ =>
        match expr o s₂ with
        | ⟨none, s₃, le₃, _⟩ => .fail s₃ (by have := lt rfl; omega)
        | ⟨some value, s₃, le₃, _⟩ =>
          finishLine s s₃ start (.assign name nameSpan value) (by have := lt rfl; omega)
      | _ => .fail (s'.report o .assignTarget none) (by have := lt rfl; simp; omega)

/-- The rest of a `return` after its keyword: a value if the next token can start one. -/
def returnStmt (s : ParseState) (start : Span) (s₀ : ParseState) (h : s.left < s₀.left) :
    Parsed StmtId s₀ :=
  if s.peek.kind.startsExpr then
    match expr o s with
    | ⟨none, s', le, _⟩ => .fail s' (by omega)
    | ⟨some value, s', le, _⟩ => finishLine s₀ s' start (.ret value) (by omega)
  else finishLine s₀ s start (.ret 0) h

/-- The rest of a `print` after its keyword. -/
def printStmt (s : ParseState) (start : Span) : Parsed StmtId s :=
  match expr o s with
  | ⟨none, s', le, _⟩ => .fail s' le
  | ⟨some value, s', _, lt⟩ => finishLine s s' start (.print value) (lt rfl)

/-- A condition in parentheses after the given keyword. -/
def condition (s : ParseState) (keyword : Text) : Parsed ExprId s :=
  match expect o s .lparen (.condOpen keyword) none with
  | ⟨none, s', le, _⟩ => .fail s' le
  | ⟨some opener, s', le, _⟩ =>
    match expr o s' with
    | ⟨none, s₂, le₂, _⟩ => .fail s₂ (by omega)
    | ⟨some cond, s₂, le₂, _⟩ =>
      match expect o s₂ .rparen .condClose (some opener.span) with
      | ⟨none, s₃, le₃, _⟩ => .fail s₃ (by omega)
      | ⟨some _, s₃, _, lt₃⟩ => .done cond s₃ (by have := lt₃ rfl; omega)

/-- One or more parameters, separated by commas. -/
def paramList (s : ParseState) : Parsed (List Param) s :=
  match expect o s .ident .paramName none with
  | ⟨none, s', le, _⟩ => .fail s' le
  | ⟨some name, s', _, lt⟩ =>
    match s'.take? .comma with
    | none => .done [⟨name.text, name.span⟩] s' (lt rfl)
    | some (_, ⟨s₂, lt₂⟩) =>
      match paramList s₂ with
      | ⟨none, s₃, le₃, _⟩ => .fail s₃ (by have := lt rfl; omega)
      | ⟨some ps, s₃, le₃, _⟩ =>
        .done (⟨name.text, name.span⟩ :: ps) s₃ (by have := lt rfl; omega)
termination_by s.left
decreasing_by have := lt rfl; omega

/-- The name and parameters of a function, up to its body. -/
def signature (s : ParseState) : Parsed (Token × List Param) s :=
  match expect o s .ident .functionName none with
  | ⟨none, s', le, _⟩ => .fail s' le
  | ⟨some name, s', le, _⟩ =>
    match expect o s' .lparen .paramsOpen none with
    | ⟨none, s₂, le₂, _⟩ => .fail s₂ (by omega)
    | ⟨some _, s₂, le₂, _⟩ =>
      let params : Continued (List Param) s₂ :=
        if s₂.isAt .rparen then ⟨some [], s₂, Nat.le_refl _⟩
        else
          let r := paramList o s₂
          ⟨r.value, r.state, r.le⟩
      match params with
      | ⟨none, s₃, le₃⟩ => .fail s₃ (by omega)
      | ⟨some ps, s₃, le₃⟩ =>
        match expect o s₃ .rparen .paramsClose none with
        | ⟨none, s₄, le₄, _⟩ => .fail s₄ (by omega)
        | ⟨some _, s₄, _, lt₄⟩ => .done (name, ps) s₄ (by have := lt₄ rfl; omega)

/-- Whether a statement can start at a token of this kind, or a block end there. -/
def isBoundary : TokenKind → Bool
  | .rbrace | .kwLet | .kwIf | .kwWhile | .kwFunction | .kwReturn | .kwPrint => true
  | _ => false

/-- Skips tokens up to a boundary, or up to and including a semicolon. -/
def skipToBoundary (s : ParseState) : { s' : ParseState // s'.left ≤ s.left } :=
  if isBoundary s.peek.kind then ⟨s, Nat.le_refl _⟩
  else match s.next? with
    | none => ⟨s, Nat.le_refl _⟩
    | some (tok, ⟨s', lt⟩) =>
      if tok.kind = .semicolon then ⟨s', Nat.le_of_lt lt⟩
      else
        let r := skipToBoundary s'
        ⟨r.val, Nat.le_of_lt (Nat.lt_of_le_of_lt r.property lt)⟩
termination_by s.left

/-- Skips all tokens. -/
def skipAll (s : ParseState) : { s' : ParseState // s'.left ≤ s.left } :=
  match s.next? with
  | none => ⟨s, Nat.le_refl _⟩
  | some (_, ⟨s', lt⟩) =>
    let r := skipAll s'
    ⟨r.val, Nat.le_of_lt (Nat.lt_of_le_of_lt r.property lt)⟩
termination_by s.left

/-- Skips the next token if a failed statement took none. -/
def skipStuck (s s' : ParseState) (h : s'.left ≤ s.left) (pos : 0 < s.left) :
    { s₂ : ParseState // s₂.left < s.left } :=
  if hs : s'.left < s.left then ⟨s', hs⟩
  else match hn : s'.next? with
    | some (_, s₂) => ⟨s₂.val, Nat.lt_of_lt_of_le s₂.property h⟩
    | none => ⟨s', by
        have := ParseState.left_eq_zero_of_next? hn
        omega⟩

/-- Recovers after a statement that failed: if it took no token the next one is skipped, then
everything up to a boundary. -/
def resync (s s' : ParseState) (h : s'.left ≤ s.left) (pos : 0 < s.left) :
    { s₂ : ParseState // s₂.left < s.left } :=
  let after := skipStuck s s' h pos
  let r := skipToBoundary after.val
  ⟨r.val, Nat.lt_of_le_of_lt r.property after.property⟩

mutual

/-- A statement, by its first token. -/
def stmt (s : ParseState) : Parsed StmtId s :=
  match s.peek.kind, s.next? with
  | .kwLet, some (tok, ⟨s', lt⟩) => (letStmt o s' tok.span).since (Nat.le_of_lt lt)
  | .kwIf, some (tok, ⟨s', lt⟩) =>
    match condition o s' "if" with
    | ⟨none, s₂, le₂, _⟩ => .fail s₂ (by omega)
    | ⟨some cond, s₂, le₂, _⟩ =>
      match block s₂ with
      | ⟨none, s₃, le₃, _⟩ => .fail s₃ (by omega)
      | ⟨some thenBody, s₃, le₃, _⟩ =>
        match s₃.take? .kwElse with
        | none => finish s s₃ tok.span (.ifElse cond thenBody [] false) (by omega)
        | some (_, ⟨s₄, lt₄⟩) =>
          match block s₄ with
          | ⟨none, s₅, le₅, _⟩ => .fail s₅ (by omega)
          | ⟨some elseBody, s₅, le₅, _⟩ =>
            finish s s₅ tok.span (.ifElse cond thenBody elseBody true) (by omega)
  | .kwWhile, some (tok, ⟨s', lt⟩) =>
    match condition o s' "while" with
    | ⟨none, s₂, le₂, _⟩ => .fail s₂ (by omega)
    | ⟨some cond, s₂, le₂, _⟩ =>
      match block s₂ with
      | ⟨none, s₃, le₃, _⟩ => .fail s₃ (by omega)
      | ⟨some body, s₃, le₃, _⟩ => finish s s₃ tok.span (.while cond body) (by omega)
  | .kwFunction, some (tok, ⟨s', lt⟩) =>
    match signature o s' with
    | ⟨none, s₂, le₂, _⟩ => .fail s₂ (by omega)
    | ⟨some (name, params), s₂, le₂, _⟩ =>
      match block s₂ with
      | ⟨none, s₃, le₃, _⟩ => .fail s₃ (by omega)
      | ⟨some body, s₃, le₃, _⟩ =>
        finish s s₃ tok.span (.function name.text name.span params body) (by omega)
  | .kwReturn, some (tok, ⟨s', lt⟩) => returnStmt o s' tok.span s lt
  | .kwPrint, some (tok, ⟨s', lt⟩) => (printStmt o s' tok.span).since (Nat.le_of_lt lt)
  | _, _ => exprStmt o s
termination_by (s.left, 1)
decreasing_by all_goals exact Prod.Lex.left _ _ (by omega)

/-- Statements between braces. -/
def block (s : ParseState) : Parsed (List StmtId) s :=
  match expect o s .lbrace .blockOpen none with
  | ⟨none, s', le, _⟩ => .fail s' le
  | ⟨some opener, s', _, lt⟩ =>
    let body := stmtList .rbrace s'
    match expect o body.val.2 .rbrace .blockClose (some opener.span) with
    | ⟨none, s₂, le₂, _⟩ => .fail s₂ (by have := lt rfl; have := body.property; omega)
    | ⟨some _, s₂, le₂, _⟩ =>
      .done body.val.1 s₂ (by have := lt rfl; have := body.property; omega)
termination_by (s.left, 0)
decreasing_by exact Prod.Lex.left _ _ (lt rfl)

/-- Statements up to a token of kind `stop` or the end of the file. -/
def stmtList (stop : TokenKind) (s : ParseState) :
    { r : List StmtId × ParseState // r.2.left ≤ s.left } :=
  if hs : s.left = 0 ∨ s.isAt stop then ⟨([], s), Nat.le_refl _⟩
  else if s.isCancelled o || s.isEnough o then
    let e := skipAll s
    ⟨([], e.val), e.property⟩
  else
    match stmt s with
    | ⟨some id, s', le, lt⟩ =>
      match stmtList stop s' with
      | ⟨(ids, s₂), le₂⟩ => ⟨(id :: ids, s₂), Nat.le_trans le₂ le⟩
    | ⟨none, s', le, _⟩ =>
      match resync s s' le (by omega) with
      | ⟨s₂, lt₂⟩ =>
        match stmtList stop s₂ with
        | ⟨r, le₃⟩ => ⟨r, by omega⟩
termination_by (s.left, 2)
decreasing_by
  · exact Prod.Lex.right _ (by omega)
  · exact Prod.Lex.left _ _ (lt rfl)
  · exact Prod.Lex.left _ _ lt₂

end

end Parser

/-- The outcome of parsing a file: the tree, the number of errors and the findings in the order in
which they were made. -/
structure ParseResult where
  tree : Tree
  errors : Nat
  reports : List Report

/-- The number of errors as a word, which has wrapped around if they do not fit. -/
def ParseResult.counter (r : ParseResult) : Nat := r.errors % Word.count

/-- Parses tokens; `endSpan` is the place of the end of the file, and `errors` the number of errors
counted before. -/
def parseTokens (o : ParseOptions) (file : FileId) (errors : Nat) (tokens : List Token)
    (endSpan : Span) : ParseResult :=
  let s : ParseState := { rest := tokens, endSpan, last := { file }, errors }
  let r := (Parser.stmtList o .eof s).val
  { tree := { r.2.tree with span := s.peek.span.cover r.2.last, program := r.1 }
    errors := r.2.errors
    reports := r.2.reports.toList }

/-- Parses what a lexer read: tokens up to the end of the file. -/
def parse (o : ParseOptions) (file : FileId) (errors : Nat) (lexed : List Lexed) : ParseResult :=
  let tokens := lexed.map (·.token)
  let body := tokens.takeWhile (·.kind != .eof)
  let endSpan := ((tokens.drop body.length).head?.map (·.span)).getD {}
  parseTokens o file errors body endSpan

/-- Findings of the lexer and the parser in the order in which one pass makes them: the problem of
a token comes before every finding made when the token was next or taken. -/
def mergeReports : (lexed : List (Nat × Diagnostic)) → List Report → List Diagnostic
  | [], rs => rs.map (·.diagnostic)
  | ls, [] => ls.map (·.2)
  | (i, d) :: ls, r :: rs =>
    if i ≤ r.taken then d :: mergeReports ls (r :: rs)
    else r.diagnostic :: mergeReports ((i, d) :: ls) rs
termination_by ls rs => ls.length + rs.length

/-- The problems of tokens, with the place of each token in the sequence. -/
def lexReports (lexed : List Lexed) : List (Nat × Diagnostic) :=
  lexed.zipIdx.filterMap fun (l, i) => l.diagnostic?.map (i, ·)

end ThreeAddress
