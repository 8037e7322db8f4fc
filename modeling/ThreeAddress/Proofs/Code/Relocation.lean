import Mathlib.Data.List.Forall2
import ThreeAddress.Proofs.Code.Redeclaration

/-!
# Code does not depend on places

The grammar looks at the kinds and texts of tokens, and spans matter only for findings.  So the same
tokens at other places are a program with the same code.
-/

namespace ThreeAddress

open Grammar

/-- The second generation succeeds wherever the first does, with the same code. -/
def Mirrors {α : Type} (m m' : Gen α) : Prop :=
  ∀ s a s', m.run s = (.ok a, s') → m'.run s = (.ok a, s')

namespace Mirrors

open Fallible

variable {α β : Type} {m m' : Gen α} {f f' : α → Gen β}

theorem refl (m : Gen α) :
  Mirrors m m
  := fun _ _ _ h => h

theorem bind (hm : Mirrors m m') (hf : ∀ a, Mirrors (f a) (f' a)) :
  Mirrors (m >>= f) (m' >>= f')
  := by
  intro s b s' h
  obtain ⟨a, s₁, hrun, hrest⟩ := run_bind_ok.mp h
  exact run_bind_ok.mpr ⟨a, s₁, hm s a s₁ hrun, hf a s₁ b s' hrest⟩

/-- What comes first is the same. -/
theorem after (hf : ∀ a, Mirrors (f a) (f' a)) :
  Mirrors (m >>= f) (m >>= f')
  := (refl m).bind hf

/-- The place of a declaration matters only if it fails. -/
theorem declare (span span' : Span) (g : SymbolTable → Except SymbolError SymbolTable) :
  Mirrors (Gen.declare span g) (Gen.declare span' g)
  := by
  rw [Gen.declare, Gen.declare]
  apply after
  intro s
  split
  · apply refl
  · intro s a s' h
    cases (Prod.mk.inj h).1

theorem inScope {body body' : Gen Unit} (h : Mirrors body body') :
  Mirrors (Gen.inScope body) (Gen.inScope body')
  := by
  intro s a s' hrun
  have hbody := h { s with table := s.table.enterScope } a _ (Prod.ext (Prod.mk.inj hrun).1 rfl)
  change (Gen.inScope body') s = _
  rw [Gen.inScope, show body' _ = _ from hbody]
  exact Prod.ext rfl (Prod.mk.inj hrun).2

theorem forM {xs ys : List β} {g g' : β → Gen Unit}
    (h : List.Forall₂ (fun x y => Mirrors (g x) (g' y)) xs ys) :
  Mirrors (xs.forM g) (ys.forM g')
  := by
  induction h with
  | nil => apply refl
  | cons hxy _ ih => apply hxy.bind fun _ => ih

end Mirrors

/-! ### Expressions -/

/-- Two expressions have the same code and give a variable the same type. -/
structure Expr.Mirrors (e e' : Expr) : Prop where
  code : ThreeAddress.Mirrors e.generate e'.generate
  type : ∀ table, e.initialType table = e'.initialType table

theorem Expr.mirrors_generateArgs {es es' : List Expr} (h : List.Forall₂ Expr.Mirrors es es') :
  ThreeAddress.Mirrors (generateArgs es) (generateArgs es')
  := by
  induction h with
  | nil => apply ThreeAddress.Mirrors.refl
  | cons he _ ih =>
      rw [generateArgs, generateArgs]
      apply he.code.bind
      intro x
      apply ih.bind
      intro xs
      apply ThreeAddress.Mirrors.refl

/-- The type that a literal gives depends on its kind. -/
theorem Expr.initialType_literal (table : SymbolTable) (span span' : Span) (kind : LiteralKind)
    (value value' : Text) :
  (Expr.literal span kind value).initialType table
    = (Expr.literal span' kind value').initialType table
  := by
  cases kind with
  | _ => rfl

namespace Grammar

/-- The token is the same at another place. -/
structure Moves (move : Token → Token) : Prop where
  kind : ∀ tok, (move tok).kind = tok.kind
  text : ∀ tok, (move tok).text = tok.text

variable {move : Token → Token}

/-- Tokens at other places are expressions with the same code. -/
theorem Derives.moved (hmove : Moves move) {part : Part} {ts : List Token} {es : List Expr}
    (h : Derives part ts es) :
  ∃ es', Derives part (ts.map move) es' ∧ List.Forall₂ Expr.Mirrors es es'
  := by
  induction h with
  | tighter _ ih =>
      obtain ⟨es', hes', hmirrors⟩ := ih
      exact ⟨es', hes'.tighter, hmirrors⟩
  | argument _ ih =>
      obtain ⟨_, hes', _ | ⟨he, ⟨⟩⟩⟩ := ih
      exact ⟨_, .argument hes', .cons he .nil⟩
  | arguments _ hcomma _ ih ih' =>
      obtain ⟨_, he', _ | ⟨he, ⟨⟩⟩⟩ := ih
      obtain ⟨es', hes', hes⟩ := ih'
      rw [List.map_append, List.map_cons]
      exact ⟨_, .arguments he' ((hmove.kind _).trans hcomma) hes', .cons he hes⟩
  | binary hop _ _ ih ih' =>
      obtain ⟨_, hl', _ | ⟨hl, ⟨⟩⟩⟩ := ih
      obtain ⟨_, hr', _ | ⟨hr, ⟨⟩⟩⟩ := ih'
      rw [List.map_append, List.map_cons]
      refine ⟨_, .binary (by rwa [hmove.kind]) hl' hr', .cons ⟨?_, fun _ => rfl⟩ .nil⟩
      rw [Expr.generate.eq_6 _ _ _ _ hop.ne_other, Expr.generate.eq_6 _ _ _ _ hop.ne_other]
      apply hl.code.bind
      intro l
      apply hr.code.bind
      intro r
      apply Mirrors.refl
  | unary hop _ ih =>
      obtain ⟨_, he', _ | ⟨he, ⟨⟩⟩⟩ := ih
      rw [List.map_cons]
      refine ⟨_, .unary (by rwa [hmove.kind]) he', .cons ⟨?_, fun _ => rfl⟩ .nil⟩
      rw [Expr.generate.eq_8 _ _ _ hop.ne_other, Expr.generate.eq_8 _ _ _ hop.ne_other]
      apply he.code.bind
      intro x
      apply Mirrors.refl
  | literal hkind =>
      refine ⟨_, .literal (by rwa [hmove.kind]), .cons ⟨?_, fun table => ?_⟩ .nil⟩
      · rw [Expr.generate.eq_2 _ _ _ hkind.ne_other, Expr.generate.eq_2 _ _ _ hkind.ne_other,
          hmove.text]
        apply Mirrors.refl
      · apply Expr.initialType_literal
  | ident hname =>
      refine ⟨_, .ident ((hmove.kind _).trans hname), .cons ⟨?_, fun table => ?_⟩ .nil⟩
      · rw [Expr.generate, Expr.generate, hmove.text]
        apply Mirrors.refl
      · rw [Expr.initialType, Expr.initialType, hmove.text]
  | group hopen _ hclose ih =>
      obtain ⟨_, he', _ | ⟨he, ⟨⟩⟩⟩ := ih
      rw [List.map_cons, List.map_append]
      refine ⟨_, .group ((hmove.kind _).trans hopen) he' ((hmove.kind _).trans hclose),
        .cons ⟨?_, fun _ => rfl⟩ .nil⟩
      rw [Expr.generate, Expr.generate]
      apply he.code
  | callNone hname hopen hclose =>
      refine ⟨_, .callNone ((hmove.kind _).trans hname) ((hmove.kind _).trans hopen)
        ((hmove.kind _).trans hclose), .cons ⟨?_, fun _ => rfl⟩ .nil⟩
      rw [Expr.generate, Expr.generate, hmove.text]
      apply Mirrors.refl
  | call hname hopen _ hclose ih =>
      obtain ⟨es', hes', hes⟩ := ih
      rw [List.map_cons, List.map_cons, List.map_append]
      refine ⟨_, .call ((hmove.kind _).trans hname) ((hmove.kind _).trans hopen) hes'
        ((hmove.kind _).trans hclose), .cons ⟨?_, fun _ => rfl⟩ .nil⟩
      rw [Expr.generate, Expr.generate, hmove.text]
      apply (Expr.mirrors_generateArgs hes).bind
      intro xs
      apply Mirrors.refl

theorem IsExpr.moved (hmove : Moves move) {ts : List Token} {e : Expr} (h : IsExpr ts e) :
  ∃ e', IsExpr (ts.map move) e' ∧ e.Mirrors e'
  := by
  obtain ⟨_, he', _ | ⟨he, ⟨⟩⟩⟩ := Derives.moved hmove h
  exact ⟨_, he', he⟩

/-! ### Statements -/

theorem next_map (hmove : Moves move) (ts : List Token) :
  next (ts.map move) = next ts
  := by
  rw [next, next, List.head?_map, Option.map_map]
  congr 1
  funext tok
  exact hmove.kind tok

theorem Ends.moved (hmove : Moves move) {ts semi rest : List Token} (h : Ends ts (semi ++ rest)) :
  Ends (ts.map move) (semi.map move ++ rest.map move)
  := by
  rw [← List.map_append]
  constructor
  · rw [next_map hmove]
    apply h.1
  · rw [next_map hmove]
    intro hnext tok htok
    rw [List.getLast?_map, Option.map_eq_some_iff] at htok
    obtain ⟨tok, htok, rfl⟩ := htok
    rw [hmove.kind]
    exact h.2 hnext tok htok

theorem Semicolon.moved (hmove : Moves move) {semi rest : List Token} (h : Semicolon semi rest) :
  Semicolon (semi.map move) (rest.map move)
  := by
  obtain ⟨tok, rfl, htok⟩ | ⟨rfl, hrest⟩ := h
  · exact .inl ⟨move tok, rfl, (hmove.kind tok).trans htok⟩
  · exact .inr ⟨rfl, by rwa [next_map hmove]⟩

theorem Params.moved (hmove : Moves move) {ts : List Token} {ps : List Param} (h : Params ts ps) :
  ∃ ps', Params (ts.map move) ps' ∧ List.Forall₂ (fun p p' => p.name = p'.name) ps ps'
  := by
  induction h with
  | one hname =>
      exact ⟨_, .one ((hmove.kind _).trans hname), .cons (hmove.text _).symm .nil⟩
  | more hname hcomma _ ih =>
      obtain ⟨ps', hps', hnames⟩ := ih
      exact ⟨_, .more ((hmove.kind _).trans hname) ((hmove.kind _).trans hcomma) hps',
        .cons (hmove.text _).symm hnames⟩

end Grammar

theorem Stmt.mirrors_generateAll {ss ss' : List Stmt}
    (h : List.Forall₂ (fun st st' : Stmt => Mirrors st.generate st'.generate) ss ss') :
  Mirrors (generateAll ss) (generateAll ss')
  := by
  induction h with
  | nil => apply Mirrors.refl
  | cons hst _ ih =>
      rw [generateAll, generateAll]
      apply hst.bind fun _ => ih

theorem Stmt.mirrors_ifElse {span span' : Span} {cond cond' : Expr}
    {thenBody thenBody' elseBody elseBody' : List Stmt} (hasElse : Bool)
    (hcond : Mirrors cond.generate cond'.generate)
    (hthen : Mirrors (generateAll thenBody) (generateAll thenBody'))
    (helse : Mirrors (generateAll elseBody) (generateAll elseBody')) :
  Mirrors (Stmt.ifElse span cond thenBody elseBody hasElse).generate
    (Stmt.ifElse span' cond' thenBody' elseBody' hasElse).generate
  := by
  rw [generate, generate]
  apply hcond.bind
  intro c
  apply Mirrors.after
  intro elseLabel
  apply Mirrors.after
  intro endLabel
  apply Mirrors.after
  intro _
  apply hthen.bind
  intro _
  apply Mirrors.after
  intro _
  apply Mirrors.after
  intro _
  cases hasElse with
  | true =>
      apply helse.bind
      intro _
      apply Mirrors.refl
  | false => apply Mirrors.refl

theorem Stmt.mirrors_while {span span' : Span} {cond cond' : Expr} {body body' : List Stmt}
    (hcond : Mirrors cond.generate cond'.generate)
    (hbody : Mirrors (generateAll body) (generateAll body')) :
  Mirrors (Stmt.while span cond body).generate (Stmt.while span' cond' body').generate
  := by
  rw [generate, generate]
  apply Mirrors.after
  intro startLabel
  apply Mirrors.after
  intro endLabel
  apply Mirrors.after
  intro _
  apply hcond.bind
  intro c
  apply Mirrors.after
  intro _
  apply hbody.bind
  intro _
  apply Mirrors.refl

theorem Stmt.mirrors_function {span span' nameSpan nameSpan' : Span} (name : Text)
    {params params' : List Param} {body body' : List Stmt}
    (hparams : List.Forall₂ (fun p p' => p.name = p'.name) params params')
    (hbody : Mirrors (generateAll body) (generateAll body')) :
  Mirrors (Stmt.function span name nameSpan params body).generate
    (Stmt.function span' name nameSpan' params' body').generate
  := by
  have hnames : params.map (·.name) = params'.map (·.name) := by
    induction hparams with
    | nil => rfl
    | cons h _ ih => rw [List.map_cons, List.map_cons, h, ih]
  have htypes : params.map (fun _ => DataType.number) = params'.map fun _ => DataType.number := by
    rw [List.map_const', List.map_const', List.Forall₂.length_eq hparams]
  rw [generate, generate, htypes, hnames]
  apply (Mirrors.declare _ _ _).bind
  intro _
  apply Mirrors.after
  intro _
  apply Mirrors.inScope
  refine (Mirrors.forM (hparams.imp ?_)).bind ?_
  · intro p p' hname
    rw [hname]
    apply Mirrors.declare
  · intro _
    apply hbody.bind
    intro _
    apply Mirrors.refl

namespace Grammar

variable {move : Token → Token}

/-- Tokens at other places are statements with the same code. -/
theorem Statements.moved (hmove : Moves move) {ts rest : List Token} {ss : List Stmt}
    (h : Statements ts rest ss) :
  ∃ ss', Statements (ts.map move) (rest.map move) ss'
    ∧ List.Forall₂ (fun st st' : Stmt => Mirrors st.generate st'.generate) ss ss'
  := by
  induction h with
  | nil => exact ⟨[], .nil, .nil⟩
  | cons _ _ ih ih' =>
      obtain ⟨_, hst', _ | ⟨hst, ⟨⟩⟩⟩ := ih
      obtain ⟨ss', hss', hss⟩ := ih'
      rw [List.map_append] at hst' ⊢
      exact ⟨_, .cons hst' hss', .cons hst hss⟩
  | letVar hall hkw hname heq he hends hsemi =>
      obtain ⟨e', he', hmirrors⟩ := he.moved hmove
      refine ⟨_, .letVar (by rw [hall]; simp) ((hmove.kind _).trans hkw)
        ((hmove.kind _).trans hname) ((hmove.kind _).trans heq) he' (hends.moved hmove)
        (hsemi.moved hmove), .cons ?_ .nil⟩
      rw [Stmt.generate, Stmt.generate, hmove.text]
      apply hmirrors.code.bind
      intro x
      simp only [hmirrors.type]
      apply (Mirrors.declare _ _ _).bind
      intro _
      apply Mirrors.refl
  | assign hall hname heq he hends hsemi =>
      obtain ⟨e', he', hmirrors⟩ := he.moved hmove
      refine ⟨_, .assign (by rw [hall]; simp) ((hmove.kind _).trans hname)
        ((hmove.kind _).trans heq) he' (hends.moved hmove) (hsemi.moved hmove), .cons ?_ .nil⟩
      rw [Stmt.generate, Stmt.generate, hmove.text]
      apply hmirrors.code.bind
      intro x
      apply Mirrors.refl
  | ifThen hall hkw hopen hc hclose hl _ hr ih =>
      obtain ⟨c', hc', hcond⟩ := hc.moved hmove
      obtain ⟨ss', hss', hbody⟩ := ih
      refine ⟨_, .ifThen (by rw [hall]; simp) ((hmove.kind _).trans hkw)
        ((hmove.kind _).trans hopen) hc' ((hmove.kind _).trans hclose) ((hmove.kind _).trans hl)
        hss' ((hmove.kind _).trans hr), .cons ?_ .nil⟩
      apply Stmt.mirrors_ifElse false hcond.code (Stmt.mirrors_generateAll hbody) (Mirrors.refl _)
  | ifElse hall hkw hopen hc hclose hl _ hr hkw' hl' _ hr' ih ih' =>
      obtain ⟨c', hc', hcond⟩ := hc.moved hmove
      obtain ⟨ss₁, hss₁, hthen⟩ := ih
      obtain ⟨ss₂, hss₂, helse⟩ := ih'
      refine ⟨_, .ifElse (by simp only [hall, List.map_cons, List.map_append]; rfl)
        ((hmove.kind _).trans hkw) ((hmove.kind _).trans hopen) hc' ((hmove.kind _).trans hclose)
        ((hmove.kind _).trans hl)
        (by simpa using hss₁) ((hmove.kind _).trans hr) ((hmove.kind _).trans hkw')
        ((hmove.kind _).trans hl') hss₂ ((hmove.kind _).trans hr'), .cons ?_ .nil⟩
      apply Stmt.mirrors_ifElse true hcond.code (Stmt.mirrors_generateAll hthen)
        (Stmt.mirrors_generateAll helse)
  | «while» hall hkw hopen hc hclose hl _ hr ih =>
      obtain ⟨c', hc', hcond⟩ := hc.moved hmove
      obtain ⟨ss', hss', hbody⟩ := ih
      refine ⟨_, .while (by rw [hall]; simp) ((hmove.kind _).trans hkw)
        ((hmove.kind _).trans hopen) hc' ((hmove.kind _).trans hclose) ((hmove.kind _).trans hl)
        hss' ((hmove.kind _).trans hr), .cons ?_ .nil⟩
      apply Stmt.mirrors_while hcond.code (Stmt.mirrors_generateAll hbody)
  | @function all rest kw name opener closer lbrace rbrace qs ts ps ss hall hkw hname hopen hps
      hclose hl _ hr ih =>
      obtain ⟨ss', hss', hbody⟩ := ih
      obtain ⟨ps', hps', hnames⟩ : ∃ ps', (qs.map move = [] ∧ ps' = [] ∨ Params (qs.map move) ps')
          ∧ List.Forall₂ (fun p p' => p.name = p'.name) ps ps' := by
        obtain ⟨rfl, rfl⟩ | hps := hps
        · exact ⟨[], .inl ⟨rfl, rfl⟩, .nil⟩
        · obtain ⟨ps', hps', hnames⟩ := hps.moved hmove
          exact ⟨ps', .inr hps', hnames⟩
      refine ⟨_, .function (by rw [hall]; simp) ((hmove.kind _).trans hkw)
        ((hmove.kind _).trans hname) ((hmove.kind _).trans hopen) hps'
        ((hmove.kind _).trans hclose) ((hmove.kind _).trans hl) hss' ((hmove.kind _).trans hr),
        .cons ?_ .nil⟩
      rw [hmove.text]
      apply Stmt.mirrors_function name.text hnames (Stmt.mirrors_generateAll hbody)
  | ret hall hkw hstarts hsemi =>
      refine ⟨_, .ret (by rw [hall]; simp) ((hmove.kind _).trans hkw) ?_ (hsemi.moved hmove),
        .cons ?_ .nil⟩
      · rw [← List.map_append, next_map hmove]
        exact hstarts
      · rw [Stmt.generate, Stmt.generate]
        apply Mirrors.refl
  | retValue hall hkw he hends hsemi =>
      obtain ⟨e', he', hmirrors⟩ := he.moved hmove
      refine ⟨_, .retValue (by rw [hall]; simp) ((hmove.kind _).trans hkw) he'
        (hends.moved hmove) (hsemi.moved hmove), .cons ?_ .nil⟩
      rw [Stmt.generate, Stmt.generate]
      apply hmirrors.code.bind
      intro x
      apply Mirrors.refl
  | print hall hkw he hends hsemi =>
      obtain ⟨e', he', hmirrors⟩ := he.moved hmove
      refine ⟨_, .print (by rw [hall]; simp) ((hmove.kind _).trans hkw) he'
        (hends.moved hmove) (hsemi.moved hmove), .cons ?_ .nil⟩
      rw [Stmt.generate, Stmt.generate]
      apply hmirrors.code.bind
      intro x
      apply Mirrors.refl
  | expr hall he hends hsemi =>
      obtain ⟨e', he', hmirrors⟩ := he.moved hmove
      refine ⟨_, .expr (by rw [hall]; simp) he' (hends.moved hmove) (hsemi.moved hmove),
        .cons ?_ .nil⟩
      rw [Stmt.generate, Stmt.generate]
      apply hmirrors.code.bind
      intro x
      apply Mirrors.refl

end Grammar

/-- Tokens at other places are a program with the same code. -/
theorem Grammar.IsProgram.moved {move : Token → Token} (hmove : Moves move) {ts : List Token}
    {ss : List Stmt} {code : Program} {table table' : SymbolTable} (h : IsProgram ts ss)
    (hcode : generate ss table = (.ok code, table')) :
  ∃ ss', IsProgram (ts.map move) ss' ∧ generate ss' table = (.ok code, table')
  := by
  obtain ⟨ss', hss', hmirrors⟩ := Statements.moved hmove h
  refine ⟨ss', hss', ?_⟩
  rw [generate] at hcode ⊢
  rcases hrun : (Stmt.generateAll ss).run { table } with ⟨e | u, s⟩
  · rw [hrun] at hcode
    cases (Prod.mk.inj hcode).1
  · rw [hrun] at hcode
    rw [Stmt.mirrors_generateAll hmirrors _ _ _ hrun]
    exact hcode

end ThreeAddress
