import ThreeAddress.Proofs.Syntax.Acceptance
import ThreeAddress.Proofs.Text.Composition
import ThreeAddress.Proofs.Token.Lexing
import ThreeAddress.Proofs.Token.Tiling
import ThreeAddress.Syntax.Inline

/-!
# Expressions on one line are read back

An expression that was parsed and is then written on one line is read back as the same expression,
except that other parentheses stand in it.  Every written expression is an operand of the tightest
level, since binary operations are written in parentheses; it starts with a byte that no operator
before it goes on with, and it is read in the same way before every text that does not continue a
word.  These properties are kept by each rule of the grammar.
-/

namespace ThreeAddress

open Grammar

namespace Expr

mutual

/-- The expression without its parentheses and its places. -/
def bare : Expr → Expr
  | ident _ name => ident {} name
  | literal _ kind value => literal {} kind value
  | call _ name _ args => call {} name {} (bareAll args)
  | binary _ op left right => binary {} op left.bare right.bare
  | unary _ op operand => unary {} op operand.bare
  | group _ inner => inner.bare
  | unknown _ code => unknown {} code
  | missing id => missing id

/-- Expressions without their parentheses and their places. -/
def bareAll : List Expr → List Expr
  | [] => []
  | e :: es => e.bare :: bareAll es

end

mutual

/-- The expressions below an expression. -/
def inside : Expr → List Expr
  | call _ _ _ args => insideAll args
  | binary _ _ left right => left :: left.inside ++ right :: right.inside
  | unary _ _ operand => operand :: operand.inside
  | group _ inner => inner :: inner.inside
  | _ => []

/-- Some expressions and all those below them. -/
def insideAll : List Expr → List Expr
  | [] => []
  | e :: es => e :: e.inside ++ insideAll es

end

/-- An expression and all those below it. -/
def parts (e : Expr) : List Expr := e :: e.inside

end Expr

namespace Stmt

mutual

/-- The expressions in a statement, those below others included. -/
def expressions : Stmt → List Expr
  | letVar _ _ _ value | assign _ _ _ value | print _ value | expr _ value => value.parts
  | ifElse _ cond thenBody elseBody _ =>
    cond.parts ++ expressionsAll thenBody ++ expressionsAll elseBody
  | .while _ cond body => cond.parts ++ expressionsAll body
  | function _ _ _ _ body => expressionsAll body
  | ret _ value => value.elim [] Expr.parts
  | unknown .. | missing _ => []

/-- The expressions in some statements. -/
def expressionsAll : List Stmt → List Expr
  | [] => []
  | s :: ss => s.expressions ++ expressionsAll ss

end

end Stmt

/-! ### Reading what is written -/

/-- A byte that an operand starts with: it is not skipped, and no operator before it goes on with
it. -/
def StartsOperand (t : Text) : Prop := ∃ b t', t = b :: t' ∧ isBlankByte b = false ∧ b ≠ 47 ∧ b ≠ 61

theorem StartsOperand.solid {t : Text} (h : StartsOperand t) (rest : Text) :
  Solid (t ++ rest)
  := by
  obtain ⟨b, t, rfl, hblank, hslash, -⟩ := h
  constructor
  · rintro b ⟨⟩
    exact hblank
  · intro body hbody
    exact hslash (List.cons.inj hbody).1

theorem StartsOperand.append {t : Text} (h : StartsOperand t) (rest : Text) :
  StartsOperand (t ++ rest)
  := by
  obtain ⟨b, t, rfl, hb⟩ := h
  exact ⟨b, t ++ rest, rfl, hb⟩

/-- A token without a problem. -/
def Lexed.ofToken (tok : Token) : Lexed := { token := tok }

/-- A text does not continue a word. -/
def EndsWord (rest : Text) : Prop := ∀ b ∈ rest.head?, isWordByte b = false

theorem endsWord_cons {b : UInt8} {t : Text} (hb : isWordByte b = false) :
  EndsWord (b :: t)
  := by
  rintro _ ⟨⟩
  exact hb

section

variable [Composing]

/-- A text is read as the tokens of a part of an expression that stands for the same as `es`, up to
parentheses. -/
def ReadsAs (part : Part) (t : Text) (es : List Expr) : Prop :=
  ∀ file offset rest, EndsWord rest → ∃ ts es',
    Scans file offset (t ++ rest) (ts.map .ofToken) (offset + t.length) rest
      ∧ Derives part ts es' ∧ Expr.bareAll es' = Expr.bareAll es

/-- What an expression is written as is read back as the expression, up to parentheses. -/
structure Expr.ReadBack (e : Expr) : Prop where
  starts : StartsOperand e.inline
  reads : ReadsAs (.operand 7) e.inline [e]

/-- Reading stops behind the text that was read. -/
theorem Scans.of_append {file : FileId} {offset stop : Nat} {t u rest : Text} {ls ls' : List Lexed}
    (h : Scans file offset u ls stop rest) (ht : u = t ++ rest) (hls : ls = ls') :
  Scans file offset (t ++ rest) ls' (offset + t.length) rest
  := by
  subst ht hls
  have hstop := h.length_le.1
  rw [List.length_append] at hstop
  have hstop : stop = offset + t.length := by omega
  rw [← hstop]
  exact h

/-! #### Symbols -/

omit [Composing] in
theorem noPair_of_forall {b : UInt8} {rest : Text} (h : ∀ e ∈ pairOperators, e.1.1 ≠ b) :
  NoPair b rest
  := fun _ _ _ hmem => h _ hmem rfl

/-- A byte that is a token by itself, whatever comes after it. -/
def IsSymbol (b : UInt8) (kind : TokenKind) : Prop :=
  (b, kind) ∈ singleOperators ∧ (∀ e ∈ pairOperators, e.1.1 ≠ b) ∧ isBlankByte b = false ∧ b ≠ 47

instance (b : UInt8) (kind : TokenKind) : Decidable (IsSymbol b kind) :=
  inferInstanceAs (Decidable (_ ∧ _ ∧ _ ∧ _))

theorem IsSymbol.exists_scans {b : UInt8} {kind : TokenKind} (h : IsSymbol b kind) (file : FileId)
    (offset : Nat) (rest : Text) :
  ∃ tok, Scans file offset (b :: rest) [.ofToken tok] (offset + 1) rest ∧ tok.kind = kind
  := by
  obtain ⟨hsingle, hpair, hblank, hslash⟩ := h
  have hsolid : Solid ([b] ++ rest) := by
    constructor
    · rintro _ ⟨⟩
      exact hblank
    · intro body hbody
      exact hslash (List.cons.inj hbody).1
  exact ⟨_, .single hsolid (.single hsingle (noPair_of_forall hpair)), rfl⟩

omit [Composing] in
/-- A binary operator is written as the operator of its token. -/
theorem Grammar.Operator.text_cases {n : Nat} {kind : TokenKind} {op : BinaryOp}
    (h : Operator n kind op) :
  (∃ b, op.text = [b] ∧ (b, kind) ∈ singleOperators)
    ∨ ∃ b c, op.text = [b, c] ∧ ((b, c), kind) ∈ pairOperators
  := by
  cases h with
  | or | and | eq | ne | le | ge =>
      right
      exact ⟨_, _, rfl, by decide⟩
  | _ =>
      left
      exact ⟨_, rfl, by decide⟩

/-- A binary operator is read before a blank. -/
theorem Grammar.Operator.exists_scans {n : Nat} {kind : TokenKind} {op : BinaryOp}
    (h : Operator n kind op) (file : FileId) (offset : Nat) (rest : Text) :
  ∃ tok, Scans file offset (op.text ++ 32 :: rest) [.ofToken tok] (offset + op.text.length)
      (32 :: rest)
    ∧ tok.kind = kind
  := by
  have hsingles : ∀ e ∈ singleOperators, isBlankByte e.1 = false := by decide
  have hpairs : ∀ e ∈ pairOperators, isBlankByte e.1.1 = false ∧ e.1.1 ≠ 47 ∧ e.1.2 ≠ 32 := by
    decide
  obtain ⟨b, htext, hsingle⟩ | ⟨b, c, htext, hpair⟩ := h.text_cases
  · rw [htext]
    have hsolid : Solid ([b] ++ 32 :: rest) := by
      constructor
      · rintro _ ⟨⟩
        exact hsingles _ hsingle
      · rintro body ⟨⟩
    have hnoPair : NoPair b (32 :: rest) := by
      rintro _ ⟨⟩ kind' hpair
      exact (hpairs _ hpair).2.2 rfl
    exact ⟨_, .single hsolid (.single hsingle hnoPair), rfl⟩
  · rw [htext]
    have hsolid : Solid ([b, c] ++ 32 :: rest) := by
      constructor
      · rintro _ ⟨⟩
        exact (hpairs _ hpair).1
      · intro body hbody
        exact (hpairs _ hpair).2.1 (List.cons.inj hbody).1
    exact ⟨_, .single hsolid (.pair hpair), rfl⟩

/-- A sign is read before an operand. -/
theorem Grammar.Sign.exists_scans {kind : TokenKind} {op : UnaryOp} (h : Sign kind op)
    (file : FileId) (offset : Nat) {t : Text} (ht : StartsOperand t) :
  ∃ tok, Scans file offset (op.text ++ t) [.ofToken tok] (offset + op.text.length) t
    ∧ tok.kind = kind
  := by
  obtain ⟨b, t, rfl, -, -, hb⟩ := ht
  have hnoPair : NoPair 33 (b :: t) := by
    rintro _ ⟨⟩ kind' hpair
    have hpairs : ∀ e ∈ pairOperators, e.1.1 = 33 → e.1.2 = 61 := by decide
    exact hb (hpairs _ hpair rfl)
  cases h with
  | not =>
      have hsolid : Solid ([33] ++ b :: t) := ⟨by rintro _ ⟨⟩; rfl, by rintro _ ⟨⟩⟩
      exact ⟨_, .single hsolid (.single (by decide) hnoPair), rfl⟩
  | neg =>
      have hsolid : Solid ([45] ++ b :: t) := ⟨by rintro _ ⟨⟩; rfl, by rintro _ ⟨⟩⟩
      exact ⟨_, .single hsolid (.single (by decide) (noPair_of_forall (by decide))), rfl⟩

/-! #### Names and literals -/

/-- The text of a token is read again as a token with this text. -/
structure Token.Kept (tok : Token) : Prop where
  starts : StartsOperand tok.text
  piece : ∀ rest, EndsWord rest → Piece tok.kind none tok.text rest
  composed : tok.kind = .string → tok.text.compose = tok.text

theorem Token.Kept.exists_scans {tok : Token} (h : tok.Kept) (file : FileId) (offset : Nat)
    {rest : Text} (hrest : EndsWord rest) :
  ∃ tok', Scans file offset (tok.text ++ rest) [.ofToken tok'] (offset + tok.text.length) rest
    ∧ tok'.kind = tok.kind ∧ tok'.text = tok.text
  := by
  refine ⟨_, .single (h.starts.solid rest) (h.piece rest hrest), rfl, ?_⟩
  apply ite_eq_right_iff.mpr
  exact h.composed

/-- A token that is an operand by itself, or the name of a call. -/
def TokenKind.IsLeaf (kind : TokenKind) : Prop := kind = .ident ∨ kind.isLiteral

instance (kind : TokenKind) : Decidable kind.IsLeaf := inferInstanceAs (Decidable (_ ∨ _))

omit [Composing] in
theorem startsOperand_of_class {b : UInt8} {w : Text} (h : isWordStart b ∨ isDigitByte b) :
  StartsOperand (b :: w)
  := by
  refine ⟨b, w, rfl, ?_⟩
  simp only [isWordStart, isDigitByte, isBlankByte, Bool.or_eq_true, Bool.and_eq_true, beq_iff_eq,
    decide_eq_true_eq, Bool.or_eq_false_iff, beq_eq_false_iff_ne, ne_eq, UInt8.le_iff_toNat_le,
    ← UInt8.toNat_inj, UInt8.reduceToNat] at h ⊢
  omega

omit [Composing] in
/-- The pieces that are names and literals: a string, or a run of a class of bytes. -/
theorem Piece.leaf_cases {kind : TokenKind} {piece rest : Text} (h : Piece kind none piece rest)
    (hleaf : kind.IsLeaf) :
  (kind = .string ∧ ∃ body : Text, piece = 34 :: (body ++ [34]) ∧ body.Unbroken)
    ∨ kind ≠ .string ∧ StartsOperand piece
  := by
  have hpairs : ∀ e ∈ pairOperators, ¬ e.2.IsLeaf := by decide
  have hsingles : ∀ e ∈ singleOperators, ¬ e.2.IsLeaf := by decide
  by_cases hkind : kind = .string
  · exact .inl ⟨hkind, h.string_cases hkind⟩
  · right
    use hkind
    cases h with
    | word hb hw => exact startsOperand_of_class (.inl hb)
    | number hb hw hend => exact startsOperand_of_class (.inr hb)
    | string hquote hline => contradiction
    | pair hpair => exact absurd hleaf (hpairs _ hpair)
    | single hsingle hpair => exact absurd hleaf (hsingles _ hsingle)

/-- Names and literals are read again, strings if they are composed already. -/
theorem Token.kept_of_piece [LawfulComposing] {tok : Token} {piece rest : Text}
    (hleaf : tok.kind.IsLeaf) (hpiece : Piece tok.kind none piece rest)
    (htext : tok.text = if tok.kind = .string then piece.compose else piece)
    (hcomposed : tok.kind = .string → tok.text.compose = tok.text) :
  tok.Kept
  := by
  have hsingles : ∀ e ∈ singleOperators, ¬ e.2.IsLeaf := by decide
  obtain ⟨hkind, body, rfl, hbody⟩ | ⟨hkind, hstarts⟩ := hpiece.leaf_cases hleaf
  · obtain ⟨body', hcompose, hbody'⟩ := LawfulComposing.quoted hbody
    rw [if_pos hkind, hcompose] at htext
    refine ⟨?_, ?_, hcomposed⟩
    · rw [htext]
      exact ⟨34, _, rfl, by decide⟩
    · intro rest _
      rw [htext, hkind]
      exact .string hbody'.quote hbody'.line
  · rw [if_neg hkind] at htext
    subst htext
    refine ⟨hstarts, ?_, hcomposed⟩
    intro rest hrest
    apply hpiece.before _ hrest
    intro b hb
    exact absurd hleaf (hsingles _ hb)

/-! ### Written expressions -/

namespace Expr

/-- The tokens that an expression is read back as, with the expression that they stand for. -/
theorem ReadBack.exists_scans {e : Expr} (he : e.ReadBack) (file : FileId) (offset : Nat)
    {rest : Text} (hrest : EndsWord rest) :
  ∃ ts e', Scans file offset (e.inline ++ rest) (ts.map .ofToken) (offset + e.inline.length) rest
    ∧ Derives (.operand 7) ts [e'] ∧ e'.bare = e.bare
  := by
  obtain ⟨ts, es, hscans, hderives, hbare⟩ := he.reads file offset rest hrest
  match es with
  | [e'] => exact ⟨ts, e', hscans, hderives, (List.cons.inj hbare).1⟩
  | [] => cases hbare
  | _ :: _ :: _ => cases (List.cons.inj hbare).2

theorem readBack_ident {tok : Token} (hkind : tok.kind = .ident) (htok : tok.Kept) (span : Span) :
  (ident span tok.text).ReadBack
  := by
  refine ⟨htok.starts, ?_⟩
  intro file offset rest hrest
  obtain ⟨tok', hscans, hkind', htext⟩ := htok.exists_scans file offset hrest
  refine ⟨[tok'], _, hscans, .ident (hkind'.trans hkind), ?_⟩
  rw [htext]
  rfl

theorem readBack_literal {tok : Token} {kind : LiteralKind} (hkind : Constant tok.kind kind)
    (htok : tok.Kept) (span : Span) :
  (literal span kind tok.text).ReadBack
  := by
  refine ⟨htok.starts, ?_⟩
  intro file offset rest hrest
  obtain ⟨tok', hscans, hkind', htext⟩ := htok.exists_scans file offset hrest
  rw [← hkind'] at hkind
  refine ⟨[tok'], _, hscans, .literal hkind, ?_⟩
  rw [htext]
  rfl

theorem readBack_group {e : Expr} (he : e.ReadBack) (span : Span) :
  (group span e).ReadBack
  := ⟨he.starts, he.reads⟩

theorem readBack_unary {kind : TokenKind} {op : UnaryOp} {e : Expr} (hop : Sign kind op)
    (he : e.ReadBack) (span : Span) :
  (unary span op e).ReadBack
  := by
  constructor
  · cases hop with
    | not => exact ⟨33, _, rfl, by decide⟩
    | neg => exact ⟨45, _, rfl, by decide⟩
  · intro file offset rest hrest
    obtain ⟨sign, hsign, hkind⟩ := hop.exists_scans file offset (he.starts.append rest)
    obtain ⟨ts, e', hscans, hderives, hbare⟩ := he.exists_scans file (offset + op.text.length) hrest
    refine ⟨sign :: ts, _, ?_, .unary (hkind ▸ hop) hderives, ?_⟩
    · rw [inline, List.append_assoc, List.length_append, ← Nat.add_assoc]
      exact hsign.append hscans
    · simp only [bareAll, bare, hbare]

/-- A blank stands before an operand. -/
theorem ReadBack.exists_scans_blank {e : Expr} (he : e.ReadBack) (file : FileId) (offset : Nat)
    {rest : Text} (hrest : EndsWord rest) :
  ∃ ts e', Scans file offset (32 :: (e.inline ++ rest)) (ts.map .ofToken)
      (offset + 1 + e.inline.length) rest
    ∧ Derives (.operand 7) ts [e'] ∧ e'.bare = e.bare
  := by
  obtain ⟨ts, e', hscans, hderives, hbare⟩ := he.exists_scans file (offset + 1) hrest
  obtain ⟨tok, ts, rfl, -⟩ := hderives.exists_head
  have hne : (tok :: ts).map Lexed.ofToken ≠ [] := List.cons_ne_nil _ _
  exact ⟨_, e', hscans.blank rfl hne, hderives, hbare⟩

omit [Composing] in
theorem inline_binary (span : Span) (op : BinaryOp) (left right : Expr) :
  (binary span op left right).inline
    = 40 :: (left.inline ++ 32 :: (op.text ++ 32 :: (right.inline ++ [41])))
  := by
  have hopener : Text.ofString "(" = [40] := rfl
  have hcloser : Text.ofString ")" = [41] := rfl
  have hblank : Text.ofString " " = [32] := rfl
  simp [inline, hopener, hcloser, hblank]

theorem readBack_binary {n : Nat} {kind : TokenKind} {op : BinaryOp} {left right : Expr}
    (hop : Operator n kind op) (hleft : left.ReadBack) (hright : right.ReadBack) (span : Span) :
  (binary span op left right).ReadBack
  := by
  have hlparen : IsSymbol 40 .lparen := by decide
  have hrparen : IsSymbol 41 .rparen := by decide
  constructor
  · exact ⟨40, _, inline_binary span op left right, by decide⟩
  · intro file offset rest hrest
    obtain ⟨opener, hopener, hopenerKind⟩ := hlparen.exists_scans file offset
      (left.inline ++ 32 :: (op.text ++ 32 :: (right.inline ++ 41 :: rest)))
    obtain ⟨ts, left', hscans, hderives, hbare⟩ := hleft.exists_scans file (offset + 1)
      (endsWord_cons (b := 32) (t := op.text ++ 32 :: (right.inline ++ 41 :: rest)) rfl)
    obtain ⟨tok, htok, htokKind⟩ := hop.exists_scans file (offset + 1 + left.inline.length + 1)
      (right.inline ++ 41 :: rest)
    obtain ⟨ts', right', hscans', hderives', hbare'⟩ := hright.exists_scans_blank file
      (offset + 1 + left.inline.length + 1 + op.text.length)
      (endsWord_cons (b := 41) (t := rest) rfl)
    obtain ⟨closer, hcloser, hcloserKind⟩ := hrparen.exists_scans file
      (offset + 1 + left.inline.length + 1 + op.text.length + 1 + right.inline.length) rest
    -- Both sides are operands of the tightest level, so the operation is one of its own level, and
    -- the parentheses make it an operand of the tightest level again.
    have hle := hop.level_le
    have hbinary : Derives (.operand n) (ts ++ tok :: ts') [_] :=
      .binary (htokKind ▸ hop) (hderives.of_le (by omega)) (hderives'.of_le (by omega))
    refine ⟨opener :: ((ts ++ tok :: ts') ++ [closer]), _, ?_,
      .group hopenerKind (hbinary.of_le hle.1) hcloserKind, ?_⟩
    · have hall := hopener.append (hscans.append ((htok.blank rfl (List.cons_ne_nil _ _)).append
        (hscans'.append hcloser)))
      apply hall.of_append
      · simp [inline_binary]
      · simp
    · simp only [bareAll, bare, hbare, hbare']

/-! #### Calls -/

omit [Composing] in
theorem inlineArgs_cons (e e' : Expr) (es : List Expr) :
  inlineArgs (e :: e' :: es) = e.inline ++ 44 :: 32 :: inlineArgs (e' :: es)
  := by
  have hcomma : Text.ofString ", " = [44, 32] := rfl
  simp [inlineArgs, hcomma]

/-- Arguments that are each read back are read back together. -/
theorem readsAs_inlineArgs {e : Expr} {es : List Expr} (he : e.ReadBack)
    (hes : ∀ e ∈ es, e.ReadBack) :
  ReadsAs .arguments (inlineArgs (e :: es)) (e :: es)
  := by
  have hcomma : IsSymbol 44 .comma := by decide
  induction es generalizing e with
  | nil =>
      intro file offset rest hrest
      obtain ⟨ts, e', hscans, hderives, hbare⟩ := he.exists_scans file offset hrest
      refine ⟨ts, [e'], hscans, .argument (hderives.of_le (by decide)), ?_⟩
      simp only [bareAll, hbare]
  | cons e₂ es ih =>
      obtain ⟨he₂, hes⟩ := List.forall_mem_cons.mp hes
      intro file offset rest hrest
      obtain ⟨ts, e', hscans, hderives, hbare⟩ := he.exists_scans file offset
        (endsWord_cons (b := 44) (t := 32 :: (inlineArgs (e₂ :: es) ++ rest)) rfl)
      obtain ⟨comma, hscansComma, hcommaKind⟩ := hcomma.exists_scans file
        (offset + e.inline.length) (32 :: (inlineArgs (e₂ :: es) ++ rest))
      obtain ⟨ts', es', hscans', hderives', hbare'⟩ := ih he₂ hes file
        (offset + e.inline.length + 1 + 1) rest hrest
      obtain ⟨tok, ts', rfl, -⟩ := hderives'.exists_head
      have hne : (tok :: ts').map Lexed.ofToken ≠ [] := List.cons_ne_nil _ _
      refine ⟨_, e' :: es', ?_, .arguments (hderives.of_le (by decide)) hcommaKind hderives', ?_⟩
      · have hall := hscans.append (hscansComma.append (hscans'.blank rfl hne))
        apply hall.of_append
        · simp [inlineArgs_cons]
        · simp
      · rw [bareAll, hbare, hbare']
        rfl

omit [Composing] in
theorem inline_call (span nameSpan : Span) (name : Text) (args : List Expr) :
  (call span name nameSpan args).inline = name ++ 40 :: (inlineArgs args ++ [41])
  := by
  have hopener : Text.ofString "(" = [40] := rfl
  have hcloser : Text.ofString ")" = [41] := rfl
  simp [inline, hopener, hcloser]

theorem readBack_call {name : Token} {args : List Expr} (hkind : name.kind = .ident)
    (hname : name.Kept) (hargs : ∀ e ∈ args, e.ReadBack) (span nameSpan : Span) :
  (call span name.text nameSpan args).ReadBack
  := by
  have hlparen : IsSymbol 40 .lparen := by decide
  have hrparen : IsSymbol 41 .rparen := by decide
  constructor
  · rw [inline_call]
    apply hname.starts.append
  · intro file offset rest hrest
    obtain ⟨tok, htok, htokKind, htext⟩ := hname.exists_scans file offset
      (endsWord_cons (b := 40) (t := inlineArgs args ++ 41 :: rest) rfl)
    obtain ⟨opener, hopener, hopenerKind⟩ := hlparen.exists_scans file
      (offset + name.text.length) (inlineArgs args ++ 41 :: rest)
    cases args with
    | nil =>
        obtain ⟨closer, hcloser, hcloserKind⟩ := hrparen.exists_scans file
          (offset + name.text.length + 1) rest
        refine ⟨[tok, opener, closer], _, ?_,
          .callNone (htokKind.trans hkind) hopenerKind hcloserKind, ?_⟩
        · apply (htok.append (hopener.append hcloser)).of_append
          · simp [inline_call, inlineArgs]
          · simp
        · simp only [bareAll, bare, htext]
    | cons e es =>
        obtain ⟨he, hes⟩ := List.forall_mem_cons.mp hargs
        obtain ⟨ts, es', hscans, hderives, hbare⟩ := readsAs_inlineArgs he hes file
          (offset + name.text.length + 1) (41 :: rest) (endsWord_cons rfl)
        obtain ⟨closer, hcloser, hcloserKind⟩ := hrparen.exists_scans file
          (offset + name.text.length + 1 + (inlineArgs (e :: es)).length) rest
        refine ⟨tok :: opener :: (ts ++ [closer]), _, ?_,
          .call (htokKind.trans hkind) hopenerKind hderives hcloserKind, ?_⟩
        · apply (htok.append (hopener.append (hscans.append hcloser))).of_append
          · simp [inline_call]
          · simp
        · simp only [bareAll, bare, htext, hbare]

omit [Composing] in
theorem mem_insideAll_of_mem {e : Expr} {es : List Expr} (he : e ∈ es) :
  e ∈ insideAll es
  := by
  induction es with
  | nil => cases he
  | cons e' es ih =>
      rw [insideAll]
      obtain rfl | he := List.mem_cons.mp he
      · exact List.mem_append_left _ List.mem_cons_self
      · exact List.mem_append_right _ (ih he)

end Expr

/-! ### Parsed expressions -/

/-- The names and literals among some tokens are read again. -/
def AllKept (ts : List Token) : Prop := ∀ tok ∈ ts, tok.kind.IsLeaf → tok.Kept

theorem AllKept.append {ts ts' : List Token} (h : AllKept (ts ++ ts')) :
  AllKept ts ∧ AllKept ts'
  := List.forall_mem_append.mp h

theorem AllKept.cons {tok : Token} {ts : List Token} (h : AllKept (tok :: ts)) :
  (tok.kind.IsLeaf → tok.Kept) ∧ AllKept ts
  := List.forall_mem_cons.mp h

omit [Composing] in
theorem Grammar.Constant.isLeaf {kind : TokenKind} {literal : LiteralKind}
    (h : Constant kind literal) :
  kind.IsLeaf
  := by
  cases h <;> decide

namespace Grammar

/-- All expressions that tokens stand for are read back. -/
theorem Derives.readBack {part : Part} {ts : List Token} {es : List Expr}
    (h : Derives part ts es) (hts : AllKept ts) :
  ∀ e ∈ Expr.insideAll es, e.ReadBack
  := by
  induction h with
  | tighter _ ih | argument _ ih => apply ih hts
  | @binary n ts ts' tok op l r hop _ _ ih ih' =>
      obtain ⟨hts, hts'⟩ := hts.append
      simp only [Expr.insideAll, Expr.inside, List.append_nil, List.forall_mem_cons,
        List.forall_mem_append, List.cons_append] at ih ih' ⊢
      obtain ⟨hl, hinside⟩ := ih hts
      obtain ⟨hr, hinside'⟩ := ih' hts'.cons.2
      exact ⟨Expr.readBack_binary hop hl hr _, hl, hinside, hr, hinside'⟩
  | unary hsign _ ih =>
      simp only [Expr.insideAll, Expr.inside, List.append_nil, List.forall_mem_cons] at ih ⊢
      obtain ⟨he, hinside⟩ := ih hts.cons.2
      exact ⟨Expr.readBack_unary hsign he _, he, hinside⟩
  | literal hconst =>
      simp only [Expr.insideAll, Expr.inside, List.append_nil, List.forall_mem_singleton]
      exact Expr.readBack_literal hconst (hts.cons.1 hconst.isLeaf) _
  | ident hkind =>
      simp only [Expr.insideAll, Expr.inside, List.append_nil, List.forall_mem_singleton]
      exact Expr.readBack_ident hkind (hts.cons.1 (.inl hkind)) _
  | group _ _ _ ih =>
      simp only [Expr.insideAll, Expr.inside, List.append_nil, List.forall_mem_cons] at ih ⊢
      obtain ⟨he, hinside⟩ := ih hts.cons.2.append.1
      exact ⟨Expr.readBack_group he _, he, hinside⟩
  | callNone hname _ _ =>
      simp only [Expr.insideAll, Expr.inside, List.append_nil, List.forall_mem_singleton]
      exact Expr.readBack_call hname (hts.cons.1 (.inl hname)) (by simp) _ _
  -- Arguments are themselves among the expressions below a call, so `ih` is about them too.
  | call hname _ _ _ ih =>
      have hargs := ih hts.cons.2.cons.2.append.1
      simp only [Expr.insideAll, Expr.inside, List.append_nil, List.forall_mem_cons]
      refine ⟨Expr.readBack_call hname (hts.cons.1 (.inl hname)) ?_ _ _, hargs⟩
      exact fun e he => hargs e (Expr.mem_insideAll_of_mem he)
  | arguments _ _ _ ih ih' =>
      obtain ⟨hts, hts'⟩ := hts.append
      simp only [Expr.insideAll, List.append_nil, List.forall_mem_append] at ih ⊢
      exact ⟨ih hts, ih' hts'.cons.2⟩

theorem IsExpr.readBack {ts : List Token} {e : Expr} (h : IsExpr ts e) (hts : AllKept ts) :
  ∀ p ∈ e.parts, p.ReadBack
  := by
  have hall := Derives.readBack h hts
  rw [Expr.insideAll, Expr.insideAll, List.append_nil] at hall
  exact hall

theorem Statements.readBack {ts rest : List Token} {ss : List Stmt} (h : Statements ts rest ss)
    (hts : AllKept ts) :
  ∀ e ∈ Stmt.expressionsAll ss, e.ReadBack
  := by
  induction h with
  | nil => simp [Stmt.expressionsAll]
  | cons _ _ ih ih' =>
      obtain ⟨hts, hts'⟩ := hts.append
      have hs := ih hts
      simp only [Stmt.expressionsAll, List.append_nil, List.forall_mem_append] at hs ⊢
      exact ⟨hs, ih' hts'⟩
  | letVar hall _ _ _ he _ _ =>
      subst hall
      have hparts := IsExpr.readBack he hts.cons.2.cons.2.cons.2.append.1
      simpa [Stmt.expressionsAll, Stmt.expressions] using hparts
  | assign hall _ _ he _ _ =>
      subst hall
      have hparts := IsExpr.readBack he hts.cons.2.cons.2.append.1
      simpa [Stmt.expressionsAll, Stmt.expressions] using hparts
  | ifThen hall _ _ hc _ _ _ _ ih | «while» hall _ _ hc _ _ _ _ ih =>
      subst hall
      obtain ⟨hcs, hrest⟩ := hts.cons.2.cons.2.append
      have hparts := IsExpr.readBack hc hcs
      have hbody := ih hrest.cons.2.cons.2.append.1
      simp only [Stmt.expressionsAll, Stmt.expressions, List.append_nil, List.forall_mem_append]
      exact ⟨hparts, hbody⟩
  | ifElse hall _ _ hc _ _ _ _ _ _ _ _ ih ih' =>
      subst hall
      obtain ⟨hcs, hrest⟩ := hts.cons.2.cons.2.append
      obtain ⟨hthen, helse⟩ := hrest.cons.2.cons.2.append
      have hparts := IsExpr.readBack hc hcs
      simp only [Stmt.expressionsAll, Stmt.expressions, List.append_nil, List.forall_mem_append]
      exact ⟨⟨hparts, ih hthen⟩, ih' helse.cons.2.cons.2.cons.2.append.1⟩
  | function hall _ _ _ _ _ _ _ _ ih =>
      subst hall
      have hbody := ih hts.cons.2.cons.2.cons.2.append.2.cons.2.cons.2.append.1
      simpa [Stmt.expressionsAll, Stmt.expressions] using hbody
  | ret => simp [Stmt.expressionsAll, Stmt.expressions]
  | retValue hall _ he _ _ =>
      subst hall
      have hparts := IsExpr.readBack he hts.cons.2.append.1
      simpa [Stmt.expressionsAll, Stmt.expressions] using hparts
  | print hall _ he _ _ =>
      subst hall
      have hparts := IsExpr.readBack he hts.cons.2.append.1
      simpa [Stmt.expressionsAll, Stmt.expressions] using hparts
  | expr hall he _ _ =>
      subst hall
      have hparts := IsExpr.readBack he hts.append.1
      simpa [Stmt.expressionsAll, Stmt.expressions] using hparts

end Grammar

/-! ### The tokens of a file -/

theorem File.allKept_lex [LawfulComposing] {f : File} (hlex : ∀ l ∈ f.lex, l.problem = none)
    (hcomposed : ∀ l ∈ f.lex, l.token.kind = .string → l.token.text.compose = l.token.text) :
  AllKept (fileTokens f.lex)
  := by
  obtain ⟨ls, stop, gap, hscans, hgap⟩ := exists_scans f.id 0 f.content
  have hmem : ∀ l ∈ ls, l ∈ f.lex := by
    intro l hl
    rw [File.lex_of_scans hscans hgap]
    exact List.mem_append_left _ hl
  rw [File.fileTokens_lex hscans hgap]
  intro tok htok hleaf
  obtain ⟨l, hl, rfl⟩ := List.mem_map.mp htok
  have hproblem := hlex l (hmem l hl)
  have hcomposed := hcomposed l (hmem l hl)
  obtain ⟨start, kind, problem, piece, rest, rfl, hpiece⟩ := hscans.exists_piece hl
  obtain rfl : problem = none := hproblem
  exact Token.kept_of_piece hleaf hpiece rfl hcomposed

theorem File.kinds_valid {f : File} (hlex : ∀ l ∈ f.lex, l.problem = none) :
  ∀ tok ∈ fileTokens f.lex, tok.kind ≠ .invalid
  := by
  intro tok htok
  have hmem : tok ∈ f.lex.map (·.token) := (List.takeWhile_sublist _).subset htok
  obtain ⟨l, hl, rfl⟩ := List.mem_map.mp hmem
  exact File.kind_lex_ne hl (hlex l hl)

omit [Composing] in
theorem Grammar.ends_nil (ts : List Token) :
  Ends ts []
  := by
  constructor
  · rintro n k op ⟨⟩
  · rintro ⟨⟩

omit [Composing] in
theorem Grammar.semicolon_nil :
  Semicolon [] []
  := by
  right
  use rfl
  rintro ⟨⟩

omit [Composing] in
theorem piece_print (t : Text) :
  Piece .kwPrint none "print" (32 :: t)
  := by
  have hkind : (TokenKind.ofWord? "print").getD .ident = .kwPrint := by decide
  have hword : IsRun isWordByte "rint" (32 :: t) := ⟨List.all_eq_true.mp rfl, endsWord_cons rfl⟩
  have hpiece : Piece ((TokenKind.ofWord? "print").getD .ident) none "print" (32 :: t) :=
    .word rfl hword
  rw [hkind] at hpiece
  exact hpiece

/-- A `print` before an expression that is read back: the file has no lexical problem, and its
tokens are one statement. -/
theorem File.isProgram_print {f : File} {e : Expr} (he : e.ReadBack)
    (hcontent : f.content = "print " ++ e.inline) :
  (∀ l ∈ f.lex, l.problem = none)
    ∧ ∃ span e', IsProgram (fileTokens f.lex) [.print span e'] ∧ e'.bare = e.bare
  := by
  have hstarts : StartsOperand "print" := ⟨112, _, rfl, by decide⟩
  have hend : EndsWord [] := by
    intro b hb
    cases hb
  obtain ⟨kw, hkeyword, hkw⟩ : ∃ kw, Scans f.id 0 (Text.ofString "print" ++ 32 :: (e.inline ++ []))
      [.ofToken kw] 5 (32 :: (e.inline ++ [])) ∧ kw.kind = .kwPrint :=
    ⟨_, .single (hstarts.solid _) (piece_print _), rfl⟩
  obtain ⟨ts, e', hscans, hderives, hbare⟩ := he.exists_scans_blank f.id 5 hend
  have htext : Text.ofString "print" ++ 32 :: (e.inline ++ []) = f.content := by
    rw [hcontent, List.append_nil]
    rfl
  have hall := hkeyword.append hscans
  rw [htext, ← List.map_singleton, ← List.map_append, List.singleton_append] at hall
  constructor
  · intro l hl
    rw [File.lex_of_scans hall .nil, List.mem_append, List.mem_singleton] at hl
    obtain hl | rfl := hl
    · obtain ⟨tok, -, rfl⟩ := List.mem_map.mp hl
      rfl
    · rfl
  · have htokens : fileTokens f.lex = kw :: ts := by
      rw [File.fileTokens_lex hall .nil, List.map_map]
      apply List.map_id
    rw [htokens]
    have hprogram : IsProgram (kw :: ts) [.print (spanOf (kw :: ts)) e'] :=
      .print (congrArg _ (List.append_nil ts).symm) hkw (hderives.of_le (by decide)) (ends_nil ts)
        semicolon_nil
    exact ⟨_, e', hprogram, hbare⟩

/-- Written on one line behind `print`, every expression of a program that was parsed without an
error is parsed without an error, and what is printed is the expression, up to parentheses.  Of
composing it is assumed that it changes the strings of the program, which are composed, no more. -/
theorem inline_parses_back [LawfulComposing] (o o' : ParseOptions) (f f' : File)
    (hcancel : o.cancelled = false) (hcancel' : o'.cancelled = false)
    (hlex : ∀ l ∈ f.lex, l.problem = none)
    (hparse : (parse o f.id 0 f.lex).errors = 0)
    (hcomposed : ∀ l ∈ f.lex, l.token.kind = .string → l.token.text.compose = l.token.text)
    {e : Expr} (he : e ∈ Stmt.expressionsAll (parse o f.id 0 f.lex).tree.statements)
    (hcontent : f'.content = "print " ++ e.inline) :
  (∀ l ∈ f'.lex, l.problem = none)
    ∧ (parse o' f'.id 0 f'.lex).errors = 0
    ∧ (o'.silent = false → (parse o' f'.id 0 f'.lex).reports = [])
    ∧ ∃ span e', (parse o' f'.id 0 f'.lex).tree.statements = [.print span e'] ∧ e'.bare = e.bare
  := by
  have hprogram := Parser.isProgram_of_parse hcancel (File.kinds_valid hlex) hparse
  have hread := Statements.readBack hprogram (File.allKept_lex hlex hcomposed) e he
  obtain ⟨hlex', span, e', hprogram', hbare⟩ := File.isProgram_print hread hcontent
  obtain ⟨herrors, hstatements⟩ := Parser.parse_of_notEnough
    (Parser.isEnough_start o' f'.id f'.lex) hcancel' hprogram'
  refine ⟨hlex', herrors, ?_, span, e', hstatements, hbare⟩
  intro hsilent
  obtain ⟨hreports, -⟩ | ⟨hnone, -⟩ :=
    @Parser.parse_cases o' f'.id f'.lex hcancel' hsilent (File.kinds_valid hlex')
  · exact hreports
  · exact absurd hprogram' (hnone _)

end

/-- A sign before parentheses, and a call with a string. -/
def signedFactor : File := { content := "-(a) * f(\"x\")" }

/-- The expression in `signedFactor`. -/
def signedProduct : Expr :=
  .binary ⟨0, 0, 13⟩ .mul
    (.unary ⟨0, 0, 4⟩ .neg (.group ⟨0, 1, 4⟩ (.ident ⟨0, 2, 3⟩ "a")))
    (.call ⟨0, 7, 13⟩ "f" ⟨0, 7, 8⟩ [.literal ⟨0, 9, 12⟩ .string "\"x\""])

theorem isProgram_signedFactor :
  IsProgram (fileTokens signedFactor.lex) [.expr ⟨0, 0, 13⟩ signedProduct]
  := by
  have htokens : fileTokens signedFactor.lex
      = (⟨.minus, ⟨0, 0, 1⟩, "-"⟩ :: ⟨.lparen, ⟨0, 1, 2⟩, "("⟩ :: ([⟨.ident, ⟨0, 2, 3⟩, "a"⟩] ++
          [⟨.rparen, ⟨0, 3, 4⟩, ")"⟩])) ++ ⟨.star, ⟨0, 5, 6⟩, "*"⟩ ::
        (⟨.ident, ⟨0, 7, 8⟩, "f"⟩ :: ⟨.lparen, ⟨0, 8, 9⟩, "("⟩ ::
          ([⟨.string, ⟨0, 9, 12⟩, "\"x\""⟩] ++ [⟨.rparen, ⟨0, 12, 13⟩, ")"⟩])) := by
    decide +kernel
  have hname : Derives (.operand 7) [⟨.ident, ⟨0, 2, 3⟩, "a"⟩] [_] := .ident rfl
  have hgroup : Derives (.operand 7)
      (⟨.lparen, ⟨0, 1, 2⟩, "("⟩ :: ([⟨.ident, ⟨0, 2, 3⟩, "a"⟩] ++ [⟨.rparen, ⟨0, 3, 4⟩, ")"⟩]))
      [_] := .group rfl (hname.of_le (by decide)) rfl
  have hsigned : Derives (.operand 7) (⟨.minus, ⟨0, 0, 1⟩, "-"⟩ :: ⟨.lparen, ⟨0, 1, 2⟩, "("⟩ ::
      ([⟨.ident, ⟨0, 2, 3⟩, "a"⟩] ++ [⟨.rparen, ⟨0, 3, 4⟩, ")"⟩])) [_] := .unary .neg hgroup
  have hstring : Derives (.operand 7) [⟨.string, ⟨0, 9, 12⟩, "\"x\""⟩] [_] := .literal .string
  have hcall : Derives (.operand 7) (⟨.ident, ⟨0, 7, 8⟩, "f"⟩ :: ⟨.lparen, ⟨0, 8, 9⟩, "("⟩ ::
      ([⟨.string, ⟨0, 9, 12⟩, "\"x\""⟩] ++ [⟨.rparen, ⟨0, 12, 13⟩, ")"⟩])) [_] :=
    .call rfl rfl (.argument (hstring.of_le (by decide))) rfl
  have hproduct : Derives (.operand 6) (_ ++ ⟨.star, ⟨0, 5, 6⟩, "*"⟩ :: _) [_] :=
    .binary .mul hsigned.tighter hcall
  rw [htokens]
  exact .expr (List.append_nil _).symm (hproduct.of_le (by decide)) (ends_nil _) semicolon_nil

/-- The expression of `signedFactor`, written on one line behind `print`. -/
def printedProduct : File := { content := "print (-a * f(\"x\"))" }

theorem signedProduct_parses_back :
  (∀ l ∈ signedFactor.lex, l.problem = none)
    ∧ (parse {} 0 0 signedFactor.lex).errors = 0
    ∧ (∀ l ∈ signedFactor.lex, l.token.kind = .string → l.token.text.compose = l.token.text)
    ∧ signedProduct ∈ Stmt.expressionsAll (parse {} 0 0 signedFactor.lex).tree.statements
    ∧ printedProduct.content = "print " ++ signedProduct.inline
    ∧ (parse {} 0 0 printedProduct.lex).errors = 0
    ∧ ∃ span e, (parse {} 0 0 printedProduct.lex).tree.statements = [.print span e]
      ∧ e.bare = signedProduct.bare
  := by
  have hlex : ∀ l ∈ signedFactor.lex, l.problem = none := by decide +kernel
  have hcomposed : ∀ l ∈ signedFactor.lex,
      l.token.kind = .string → l.token.text.compose = l.token.text := by decide +kernel
  obtain ⟨herrors, hstatements⟩ := @Parser.parse_of_isProgram {} 0 0 _ _ rfl rfl
    isProgram_signedFactor
  have hmem : signedProduct
      ∈ Stmt.expressionsAll (parse {} 0 0 signedFactor.lex).tree.statements := by
    rw [hstatements]
    exact List.mem_cons_self
  have hcontent : printedProduct.content = "print " ++ signedProduct.inline := by decide +kernel
  obtain ⟨-, herrors', -, hprinted⟩ := inline_parses_back {} {} signedFactor printedProduct rfl rfl
    hlex herrors hcomposed hmem hcontent
  exact ⟨hlex, herrors, hcomposed, hmem, hcontent, herrors', hprinted⟩

end ThreeAddress
