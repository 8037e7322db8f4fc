import Mathlib.Tactic.Common
import ThreeAddress.Syntax.Expr

/-!
# The grammar of the language

The grammar relates a sequence of tokens to the syntax that it stands for.

* `Derives part ts es` says that the tokens `ts` are a part of an expression: an operand of some
  level, which stands for the one expression in `es`, or the arguments of a call, which stand for
  `es`.  The binary operators have the levels `1` to `6`, and level `7` is that of unary operators.
  An operand of a level is one of the next level, or an operand of the level, an operator of the
  level and an operand of the next level; so operators of one level associate to the left.
* `Statements ts rest ss` says that the tokens `ts`, if `rest` comes after them, are the statements
  `ss`.

The grammar alone leaves open where a statement ends.  What comes after it decides: an expression
goes on as long as an operator follows, a name with a parenthesis after it is a call, a `return`
without a value stands only before a token that no expression starts with, and a semicolon belongs
to the statement before it.
-/

namespace ThreeAddress

namespace Grammar

/-! ### Expressions -/

/-- The binary operators of each level, with their tokens. -/
inductive Operator : Nat → TokenKind → BinaryOp → Prop
  | or : Operator 1 .orOr .or
  | and : Operator 2 .andAnd .and
  | eq : Operator 3 .eqEq .eq
  | ne : Operator 3 .bangEq .ne
  | lt : Operator 4 .lt .lt
  | gt : Operator 4 .gt .gt
  | le : Operator 4 .ltEq .le
  | ge : Operator 4 .gtEq .ge
  | add : Operator 5 .plus .add
  | sub : Operator 5 .minus .sub
  | mul : Operator 6 .star .mul
  | div : Operator 6 .slash .div
  | mod : Operator 6 .percent .mod

/-- The unary operators, with their tokens. -/
inductive Sign : TokenKind → UnaryOp → Prop
  | not : Sign .bang .not
  | neg : Sign .minus .neg

/-- The kinds of literals, with their tokens. -/
inductive Constant : TokenKind → LiteralKind → Prop
  | number : Constant .number .number
  | string : Constant .string .string
  | true : Constant .kwTrue .boolean
  | false : Constant .kwFalse .boolean

/-- The parts of expressions: operands of a level, and the arguments of a call. -/
inductive Part where
  | operand (level : Nat)
  | arguments

/-- The tokens `ts` are a part of an expression and stand for `es`. -/
inductive Derives : Part → List Token → List Expr → Prop
  | tighter {n ts es} : Derives (.operand (n + 1)) ts es → Derives (.operand n) ts es
  | binary {n ts ts' tok op l r} :
      Operator n tok.kind op → Derives (.operand n) ts [l] → Derives (.operand (n + 1)) ts' [r] →
      Derives (.operand n) (ts ++ tok :: ts') [.binary (l.span.cover r.span) op l r]
  | unary {ts tok op e} :
      Sign tok.kind op → Derives (.operand 7) ts [e] →
      Derives (.operand 7) (tok :: ts) [.unary (tok.span.cover e.span) op e]
  | literal {tok kind} :
      Constant tok.kind kind → Derives (.operand 7) [tok] [.literal tok.span kind tok.text]
  | ident {tok} : tok.kind = .ident → Derives (.operand 7) [tok] [.ident tok.span tok.text]
  | group {ts opener closer e} :
      opener.kind = .lparen → Derives (.operand 1) ts [e] → closer.kind = .rparen →
      Derives (.operand 7) (opener :: (ts ++ [closer])) [.group (opener.span.cover closer.span) e]
  | callNone {name opener closer} :
      name.kind = .ident → opener.kind = .lparen → closer.kind = .rparen →
      Derives (.operand 7) [name, opener, closer]
        [.call (name.span.cover closer.span) name.text name.span []]
  | call {ts name opener closer es} :
      name.kind = .ident → opener.kind = .lparen → Derives .arguments ts es →
      closer.kind = .rparen →
      Derives (.operand 7) (name :: opener :: (ts ++ [closer]))
        [.call (name.span.cover closer.span) name.text name.span es]
  | argument {ts e} : Derives (.operand 1) ts [e] → Derives .arguments ts [e]
  | arguments {ts ts' comma e es} :
      Derives (.operand 1) ts [e] → comma.kind = .comma → Derives .arguments ts' es →
      Derives .arguments (ts ++ comma :: ts') (e :: es)

/-- The tokens `ts` are the expression `e`. -/
abbrev IsExpr (ts : List Token) (e : Expr) : Prop := Derives (.operand 1) ts [e]

/-! ### Statements -/

/-- The kind of the next token, if there is one. -/
def next (rest : List Token) : Option TokenKind := rest.head?.map (·.kind)

/-- An expression `ts` ends before `rest`: no binary operator follows, and no parenthesis follows a
name. -/
def Ends (ts rest : List Token) : Prop :=
  (∀ n k op, next rest = some k → ¬ Operator n k op)
    ∧ (next rest = some .lparen → ∀ tok, ts.getLast? = some tok → tok.kind ≠ .ident)

/-- An expression can start with a token of this kind. -/
def StartsExpr (k : TokenKind) : Prop := ∃ tok ts e, tok.kind = k ∧ IsExpr (tok :: ts) e

/-- The optional semicolon before `rest`: it is there whenever it can be. -/
def Semicolon (semi rest : List Token) : Prop :=
  (∃ tok, semi = [tok] ∧ tok.kind = .semicolon) ∨ semi = [] ∧ next rest ≠ some .semicolon

/-- The span from the first to the last token. -/
def spanOf (ts : List Token) : Span :=
  ((ts.head?.map Token.span).getD {}).cover ((ts.getLast?.map Token.span).getD {})

/-- The tokens `ts` are one or more parameters. -/
inductive Params : List Token → List Param → Prop
  | one {tok} : tok.kind = .ident → Params [tok] [⟨tok.text, tok.span⟩]
  | more {tok comma ts ps} :
      tok.kind = .ident → comma.kind = .comma → Params ts ps →
      Params (tok :: comma :: ts) (⟨tok.text, tok.span⟩ :: ps)

/-- The tokens `ts`, before `rest`, are the statements `ss`. -/
inductive Statements : List Token → List Token → List Stmt → Prop
  | nil {rest} : Statements [] rest []
  | cons {ts ts' rest s ss} :
      Statements ts (ts' ++ rest) [s] → Statements ts' rest ss →
      Statements (ts ++ ts') rest (s :: ss)
  | letVar {all rest kw name eq ts semi e} :
      all = kw :: name :: eq :: (ts ++ semi) →
      kw.kind = .kwLet → name.kind = .ident → eq.kind = .assign → IsExpr ts e →
      Ends ts (semi ++ rest) → Semicolon semi rest →
      Statements all rest [.letVar (spanOf all) name.text name.span e]
  | assign {all rest name eq ts semi e} :
      all = name :: eq :: (ts ++ semi) →
      name.kind = .ident → eq.kind = .assign → IsExpr ts e →
      Ends ts (semi ++ rest) → Semicolon semi rest →
      Statements all rest [.assign (spanOf all) name.text name.span e]
  | ifThen {all rest kw opener closer lbrace rbrace cs ts c ss} :
      all = kw :: opener :: (cs ++ closer :: lbrace :: (ts ++ [rbrace])) →
      kw.kind = .kwIf → opener.kind = .lparen → IsExpr cs c → closer.kind = .rparen →
      lbrace.kind = .lbrace → Statements ts (rbrace :: rest) ss → rbrace.kind = .rbrace →
      Statements all rest [.ifElse (spanOf all) c ss [] false]
  | ifElse {all rest kw opener closer lbrace rbrace kw' lbrace' rbrace' cs ts ts' c ss ss'} :
      all = kw :: opener :: (cs ++ closer :: lbrace :: (ts ++ rbrace :: kw' :: lbrace' ::
        (ts' ++ [rbrace']))) →
      kw.kind = .kwIf → opener.kind = .lparen → IsExpr cs c → closer.kind = .rparen →
      lbrace.kind = .lbrace →
      Statements ts (rbrace :: kw' :: lbrace' :: (ts' ++ rbrace' :: rest)) ss →
      rbrace.kind = .rbrace → kw'.kind = .kwElse →
      lbrace'.kind = .lbrace → Statements ts' (rbrace' :: rest) ss' → rbrace'.kind = .rbrace →
      Statements all rest [.ifElse (spanOf all) c ss ss' true]
  | while {all rest kw opener closer lbrace rbrace cs ts c ss} :
      all = kw :: opener :: (cs ++ closer :: lbrace :: (ts ++ [rbrace])) →
      kw.kind = .kwWhile → opener.kind = .lparen → IsExpr cs c → closer.kind = .rparen →
      lbrace.kind = .lbrace → Statements ts (rbrace :: rest) ss → rbrace.kind = .rbrace →
      Statements all rest [.while (spanOf all) c ss]
  | function {all rest kw name opener closer lbrace rbrace qs ts ps ss} :
      all = kw :: name :: opener :: (qs ++ closer :: lbrace :: (ts ++ [rbrace])) →
      kw.kind = .kwFunction → name.kind = .ident → opener.kind = .lparen →
      (qs = [] ∧ ps = [] ∨ Params qs ps) → closer.kind = .rparen →
      lbrace.kind = .lbrace → Statements ts (rbrace :: rest) ss → rbrace.kind = .rbrace →
      Statements all rest [.function (spanOf all) name.text name.span ps ss]
  | ret {all rest kw semi} :
      all = kw :: semi →
      kw.kind = .kwReturn → (∀ k, next (semi ++ rest) = some k → ¬ StartsExpr k) →
      Semicolon semi rest →
      Statements all rest [.ret (spanOf all) none]
  | retValue {all rest kw ts semi e} :
      all = kw :: (ts ++ semi) →
      kw.kind = .kwReturn → IsExpr ts e → Ends ts (semi ++ rest) → Semicolon semi rest →
      Statements all rest [.ret (spanOf all) (some e)]
  | print {all rest kw ts semi e} :
      all = kw :: (ts ++ semi) →
      kw.kind = .kwPrint → IsExpr ts e → Ends ts (semi ++ rest) → Semicolon semi rest →
      Statements all rest [.print (spanOf all) e]
  | expr {all rest ts semi e} :
      all = ts ++ semi → IsExpr ts e → Ends ts (semi ++ rest) → Semicolon semi rest →
      Statements all rest [.expr (spanOf all) e]

/-- The tokens `ts` are the program `ss`. -/
def IsProgram (ts : List Token) (ss : List Stmt) : Prop := Statements ts [] ss

/-! ### Operators by their tokens -/

theorem operator_iff {n : Nat} {k : TokenKind} {op : BinaryOp} :
  Operator n k op ↔ BinaryOp.ofToken? k = some op ∧ op.precedence = n
  := by
  constructor
  · rintro ⟨⟩ <;> exact ⟨rfl, rfl⟩
  · rintro ⟨hop, rfl⟩
    cases k with
    | orOr | andAnd | eqEq | bangEq | lt | gt | ltEq | gtEq | plus | minus | star | slash
    | percent =>
        cases hop
        constructor
    | _ => cases hop

theorem sign_iff {k : TokenKind} {op : UnaryOp} :
  Sign k op ↔ UnaryOp.ofToken? k = some op
  := by
  constructor
  · rintro ⟨⟩ <;> rfl
  · intro h
    cases k with
    | bang | minus =>
        cases h
        constructor
    | _ => cases h

theorem Operator.level_le {n : Nat} {k : TokenKind} {op : BinaryOp} (h : Operator n k op) :
  1 ≤ n ∧ n ≤ 6
  := by
  cases h <;> decide

/-! ### First tokens -/

/-- Every part of an expression starts with a token that the parser expects at its start. -/
theorem Derives.exists_head {part : Part} {ts : List Token} {es : List Expr}
    (h : Derives part ts es) :
  ∃ tok ts', ts = tok :: ts' ∧ tok.kind.startsExpr
  := by
  induction h with
  | tighter _ ih | argument _ ih => apply ih
  | binary _ _ _ ih _ | arguments _ _ _ ih _ =>
      obtain ⟨tok, ts', rfl, htok⟩ := ih
      refine ⟨tok, _, rfl, htok⟩
  | @unary ts tok _ _ hsign =>
      use tok, ts, rfl
      generalize tok.kind = k at hsign
      cases hsign <;> rfl
  | @literal tok _ hconst =>
      use tok, [], rfl
      generalize tok.kind = k at hconst
      cases hconst <;> rfl
  | ident htok | group htok _ _ | callNone htok _ _ | call htok _ _ _ =>
      refine ⟨_, _, rfl, ?_⟩
      rw [htok]
      rfl

/-- An operand of a level is an operand of every looser level. -/
theorem Derives.of_le {m n : Nat} {ts : List Token} {es : List Expr} (hnm : n ≤ m)
    (h : Derives (.operand m) ts es) :
  Derives (.operand n) ts es
  := by
  induction hnm with
  | refl => apply h
  | step _ ih => apply ih h.tighter

/-- Only a name alone stands for a name. -/
theorem Derives.eq_singleton {part : Part} {n : Nat} {ts : List Token} {es : List Expr}
    {span : Span} {name : Text} (h : Derives part ts es) (hpart : part = .operand n)
    (hes : es = [.ident span name]) :
  ∃ tok, ts = [tok] ∧ tok.kind = .ident
  := by
  induction h generalizing n with
  | tighter _ ih => apply ih rfl hes
  | ident hk => exact ⟨_, rfl, hk⟩
  | argument | arguments => cases hpart
  | _ => cases hes

/-- The tokens with which an expression can start are those that the parser expects. -/
theorem startsExpr_iff {k : TokenKind} :
  StartsExpr k ↔ k.startsExpr
  := by
  constructor
  · rintro ⟨tok, ts, e, rfl, h⟩
    obtain ⟨tok', ts', heq, htok⟩ := h.exists_head
    cases heq
    apply htok
  · intro h
    have hone : Derives (.operand 7) [⟨.number, {}, []⟩] [_] := .literal .number
    have hgroup : Derives (.operand 7)
        [⟨.lparen, {}, []⟩, ⟨.number, {}, []⟩, ⟨.rparen, {}, []⟩] [_] :=
      .group rfl (hone.of_le (by decide)) rfl
    have hnot : Derives (.operand 7) [⟨.bang, {}, []⟩, ⟨.number, {}, []⟩] [_] := .unary .not hone
    have hneg : Derives (.operand 7) [⟨.minus, {}, []⟩, ⟨.number, {}, []⟩] [_] := .unary .neg hone
    cases k with
    | ident => exact ⟨⟨.ident, {}, []⟩, [], _, rfl, (Derives.ident rfl).of_le (by decide)⟩
    | number => exact ⟨_, _, _, rfl, hone.of_le (by decide)⟩
    | string => exact ⟨⟨.string, {}, []⟩, [], _, rfl, (Derives.literal .string).of_le (by decide)⟩
    | kwTrue => exact ⟨⟨.kwTrue, {}, []⟩, [], _, rfl, (Derives.literal .true).of_le (by decide)⟩
    | kwFalse => exact ⟨⟨.kwFalse, {}, []⟩, [], _, rfl, (Derives.literal .false).of_le (by decide)⟩
    | lparen => exact ⟨_, _, _, rfl, hgroup.of_le (by decide)⟩
    | bang => exact ⟨_, _, _, rfl, hnot.of_le (by decide)⟩
    | minus => exact ⟨_, _, _, rfl, hneg.of_le (by decide)⟩
    | _ => cases h

end Grammar

end ThreeAddress
