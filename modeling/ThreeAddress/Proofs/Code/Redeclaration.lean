import ThreeAddress.Code.Generate
import ThreeAddress.Proofs.Fallible
import ThreeAddress.Proofs.Syntax.Grammar

/-!
# Programs of the grammar fail only by a redeclaration

What the grammar derives has no malformed nodes.  So if no code is generated for it, then a name was
declared twice in one scope.
-/

namespace ThreeAddress

open Grammar

/-- If the generation fails, then because of a name that was declared twice. -/
def OnlyRedeclares {α : Type} (m : Gen α) : Prop :=
  ∀ s e s', m.run s = (.error e, s') → ∃ cause span, e = .redeclared cause span

namespace OnlyRedeclares

open Fallible

variable {α β : Type} {m : Gen α} {f : α → Gen β}

theorem pure (a : α) :
  OnlyRedeclares (Pure.pure a : Gen α)
  := by
  intro s e s' h
  cases (Prod.mk.inj h).1

theorem bind (hm : OnlyRedeclares m) (hf : ∀ a, OnlyRedeclares (f a)) :
  OnlyRedeclares (m >>= f)
  := by
  intro s e s' h
  obtain h | ⟨a, s₁, -, h⟩ := run_bind_error h
  · apply hm s e s' h
  · apply hf a s₁ e s' h

theorem emit (i : Instr) :
  OnlyRedeclares (Gen.emit i)
  := by
  intro s e s' h
  cases (Prod.mk.inj h).1

theorem newTemp :
  OnlyRedeclares Gen.newTemp
  := by
  intro s e s' h
  cases (Prod.mk.inj h).1

theorem newLabel :
  OnlyRedeclares Gen.newLabel
  := by
  intro s e s' h
  cases (Prod.mk.inj h).1

theorem declare (span : Span) (g : SymbolTable → Except SymbolError SymbolTable) :
  OnlyRedeclares (Gen.declare span g)
  := by
  intro s e s' h
  rw [Gen.declare] at h
  obtain h | ⟨_, s₁, -, h⟩ := run_bind_error h
  · cases (Prod.mk.inj h).1
  · split at h
    · cases (Prod.mk.inj h).1
    · cases (Prod.mk.inj h).1
      exact ⟨_, _, rfl⟩

theorem inScope {body : Gen Unit} (h : OnlyRedeclares body) :
  OnlyRedeclares (Gen.inScope body)
  := by
  intro s e s' hrun
  apply h { s with table := s.table.enterScope } e _ (Prod.ext (Prod.mk.inj hrun).1 rfl)

theorem forM {xs : List β} {g : β → Gen Unit} (h : ∀ x, OnlyRedeclares (g x)) :
  OnlyRedeclares (xs.forM g)
  := by
  induction xs with
  | nil => apply pure
  | cons x xs ih => apply (h x).bind fun _ => ih

end OnlyRedeclares

/-! ### What the grammar derives -/

theorem Grammar.Operator.ne_other {n : Nat} {k : TokenKind} {op : BinaryOp} (h : Operator n k op)
    (code : Nat) :
  op ≠ .other code
  := by
  cases h <;> simp

theorem Grammar.Sign.ne_other {k : TokenKind} {op : UnaryOp} (h : Sign k op) (code : Nat) :
  op ≠ .other code
  := by
  cases h <;> simp

theorem Grammar.Constant.ne_other {k : TokenKind} {kind : LiteralKind} (h : Constant k kind)
    (code : Nat) :
  kind ≠ .other code
  := by
  cases h <;> simp

namespace Expr

theorem onlyRedeclares_generateArgs {es : List Expr} (h : ∀ e ∈ es, OnlyRedeclares e.generate) :
  OnlyRedeclares (generateArgs es)
  := by
  induction es with
  | nil => apply OnlyRedeclares.pure
  | cons e es ih =>
      obtain ⟨he, hes⟩ := List.forall_mem_cons.mp h
      rw [generateArgs]
      apply he.bind
      intro x
      apply (ih hes).bind
      intro xs
      apply OnlyRedeclares.pure

/-- Code that goes on with an instruction for a new temporary. -/
theorem onlyRedeclares_instr (i : Operand → Instr) :
  OnlyRedeclares (do
    let t ← Gen.newTemp
    Gen.emit (i t)
    return t)
  := by
  apply OnlyRedeclares.newTemp.bind
  intro t
  apply (OnlyRedeclares.emit _).bind
  intro _
  apply OnlyRedeclares.pure

end Expr

theorem Grammar.Derives.onlyRedeclares {part : Part} {ts : List Token} {es : List Expr}
    (h : Derives part ts es) :
  ∀ e ∈ es, OnlyRedeclares e.generate
  := by
  induction h with
  | tighter _ ih | argument _ ih => apply ih
  | arguments _ _ _ ih ih' => simp_all
  | binary hop _ _ ih ih' =>
      rw [List.forall_mem_singleton] at ih ih' ⊢
      rw [Expr.generate.eq_6 _ _ _ _ hop.ne_other]
      apply ih.bind
      intro l
      apply ih'.bind
      intro r
      apply Expr.onlyRedeclares_instr
  | unary hop _ ih =>
      rw [List.forall_mem_singleton] at ih ⊢
      rw [Expr.generate.eq_8 _ _ _ hop.ne_other]
      apply ih.bind
      intro x
      apply Expr.onlyRedeclares_instr
  | literal hkind =>
      rw [List.forall_mem_singleton, Expr.generate.eq_2 _ _ _ hkind.ne_other]
      apply OnlyRedeclares.pure
  | ident =>
      rw [List.forall_mem_singleton, Expr.generate]
      apply OnlyRedeclares.pure
  | group _ _ _ ih =>
      rw [List.forall_mem_singleton] at ih ⊢
      rw [Expr.generate]
      apply ih
  | callNone =>
      rw [List.forall_mem_singleton, Expr.generate]
      apply (Expr.onlyRedeclares_generateArgs (by simp)).bind
      intro xs
      apply Expr.onlyRedeclares_instr
  | call _ _ _ _ ih =>
      rw [List.forall_mem_singleton, Expr.generate]
      apply (Expr.onlyRedeclares_generateArgs ih).bind
      intro xs
      apply Expr.onlyRedeclares_instr

theorem Grammar.IsExpr.onlyRedeclares {ts : List Token} {e : Expr} (h : IsExpr ts e) :
  OnlyRedeclares e.generate
  := Derives.onlyRedeclares h e List.mem_cons_self

theorem Stmt.onlyRedeclares_generateAll {ss : List Stmt}
    (h : ∀ st ∈ ss, OnlyRedeclares st.generate) :
  OnlyRedeclares (generateAll ss)
  := by
  induction ss with
  | nil => apply OnlyRedeclares.pure
  | cons st ss ih =>
      obtain ⟨hst, hss⟩ := List.forall_mem_cons.mp h
      rw [generateAll]
      apply hst.bind fun _ => ih hss

theorem Stmt.onlyRedeclares_ifElse {span : Span} {cond : Expr} {thenBody elseBody : List Stmt}
    {hasElse : Bool} (hcond : OnlyRedeclares cond.generate)
    (hthen : ∀ st ∈ thenBody, OnlyRedeclares st.generate)
    (helse : ∀ st ∈ elseBody, OnlyRedeclares st.generate) :
  OnlyRedeclares (Stmt.ifElse span cond thenBody elseBody hasElse).generate
  := by
  rw [generate]
  apply hcond.bind
  intro c
  apply OnlyRedeclares.newLabel.bind
  intro elseLabel
  apply OnlyRedeclares.newLabel.bind
  intro endLabel
  apply (OnlyRedeclares.emit _).bind
  intro _
  apply (onlyRedeclares_generateAll hthen).bind
  intro _
  apply (OnlyRedeclares.emit _).bind
  intro _
  apply (OnlyRedeclares.emit _).bind
  intro _
  split
  · apply (onlyRedeclares_generateAll helse).bind
    intro _
    apply OnlyRedeclares.emit
  · apply OnlyRedeclares.emit

theorem Grammar.Statements.onlyRedeclares {ts rest : List Token} {ss : List Stmt}
    (h : Statements ts rest ss) :
  ∀ st ∈ ss, OnlyRedeclares st.generate
  := by
  induction h with
  | nil => simp
  | cons _ _ ih ih' => simp_all
  | letVar _ _ _ _ he =>
      rw [List.forall_mem_singleton, Stmt.generate]
      apply he.onlyRedeclares.bind
      intro x
      apply (OnlyRedeclares.declare _ _).bind
      intro _
      apply OnlyRedeclares.emit
  | assign _ _ _ he | retValue _ _ he | print _ _ he =>
      rw [List.forall_mem_singleton, Stmt.generate]
      apply he.onlyRedeclares.bind
      intro x
      apply OnlyRedeclares.emit
  | ifThen _ _ _ hc _ _ _ _ ih =>
      rw [List.forall_mem_singleton]
      apply Stmt.onlyRedeclares_ifElse hc.onlyRedeclares ih
      simp
  | ifElse _ _ _ hc _ _ _ _ _ _ _ _ ih ih' =>
      rw [List.forall_mem_singleton]
      apply Stmt.onlyRedeclares_ifElse hc.onlyRedeclares ih ih'
  | «while» _ _ _ hc _ _ _ _ ih =>
      rw [List.forall_mem_singleton, Stmt.generate]
      apply OnlyRedeclares.newLabel.bind
      intro startLabel
      apply OnlyRedeclares.newLabel.bind
      intro endLabel
      apply (OnlyRedeclares.emit _).bind
      intro _
      apply hc.onlyRedeclares.bind
      intro c
      apply (OnlyRedeclares.emit _).bind
      intro _
      apply (Stmt.onlyRedeclares_generateAll ih).bind
      intro _
      apply (OnlyRedeclares.emit _).bind
      intro _
      apply OnlyRedeclares.emit
  | function _ _ _ _ _ _ _ _ _ ih =>
      rw [List.forall_mem_singleton, Stmt.generate]
      apply (OnlyRedeclares.declare _ _).bind
      intro _
      apply (OnlyRedeclares.emit _).bind
      intro _
      apply OnlyRedeclares.inScope
      apply (OnlyRedeclares.forM fun _ => OnlyRedeclares.declare _ _).bind
      intro _
      apply (Stmt.onlyRedeclares_generateAll ih).bind
      intro _
      apply OnlyRedeclares.emit
  | ret =>
      rw [List.forall_mem_singleton, Stmt.generate]
      apply OnlyRedeclares.emit
  | expr _ he =>
      rw [List.forall_mem_singleton, Stmt.generate]
      apply he.onlyRedeclares.bind
      intro x
      apply OnlyRedeclares.pure

/-- A program of the grammar fails only by a redeclaration. -/
theorem generate_of_isProgram {ts : List Token} {ss : List Stmt} (h : IsProgram ts ss)
    (table : SymbolTable) :
  (∃ p table', generate ss table = (.ok p, table'))
    ∨ ∃ cause span table', generate ss table = (.error (.redeclared cause span), table')
  := by
  rw [generate]
  rcases hrun : (Stmt.generateAll ss).run { table } with ⟨e | u, s⟩
  · obtain ⟨cause, span, rfl⟩ :=
      Stmt.onlyRedeclares_generateAll (Statements.onlyRedeclares h) _ _ _ hrun
    exact .inr ⟨cause, span, s.table, rfl⟩
  · exact .inl ⟨s.code.toList, s.table, rfl⟩

end ThreeAddress
