import Mathlib.Tactic.Common
import ThreeAddress.Proofs.Code.Redeclaration
import ThreeAddress.Proofs.Symbol.Scopes
import ThreeAddress.Proofs.Syntax.Acceptance

/-!
# Declarations of a program

`declarations` lists what a program declares in source order, each name with the scope to which it
belongs: `0` is the top level, and `n` the body of the `n`-th function.  The parts of an `if` or of
a `while` belong to the scope around it, and parameters belong to the body of their function.

Generation makes these declarations one after another, so it fails if and only if some scope
declares a name twice, and then at the first such name.
-/

namespace ThreeAddress

open Grammar

/-! ### What a program declares -/

/-- A name that is declared, with the place of the name and the scope that declares it. -/
structure Declaration where
  name : Text
  span : Span
  scope : Nat
  isFunction : Bool
deriving DecidableEq, Repr

namespace Declaration

/-- The same name in the same scope. -/
def Clashes (d d' : Declaration) : Prop := d.scope = d'.scope ∧ d.name = d'.name

instance (d d' : Declaration) : Decidable (d.Clashes d') :=
  inferInstanceAs (Decidable (d.scope = d'.scope ∧ d.name = d'.name))

/-- One of the declarations `before` is of the same name in the same scope. -/
def Repeats (d : Declaration) (before : List Declaration) : Prop := ∃ d' ∈ before, d'.Clashes d

/-- What is wrong with a declaration that repeats another one. -/
def cause (d : Declaration) : SymbolError :=
  if d.isFunction then .redeclaredFunction d.name else .redeclaredVariable d.name

/-- The error of a declaration that repeats another one: it points at the name. -/
def error (d : Declaration) : GenError := .redeclared d.cause d.span

/-- No scope declares a name twice. -/
def Distinct (ds : List Declaration) : Prop := ds.Pairwise fun d d' => ¬ d.Clashes d'

instance (ds : List Declaration) : Decidable (Distinct ds) :=
  inferInstanceAs (Decidable (ds.Pairwise fun d d' => ¬ d.Clashes d'))

/-- The first of the declarations that repeats an earlier one. -/
def FirstRepeated (ds : List Declaration) (d : Declaration) : Prop :=
  ∃ before later, ds = before ++ d :: later ∧ Distinct before ∧ d.Repeats before

/-- The number of functions among some declarations. -/
def functions (ds : List Declaration) : Nat := ds.countP (·.isFunction)

/-- The number of variables and parameters among some declarations. -/
def variableCount (ds : List Declaration) : Nat := ds.countP (! ·.isFunction)

/-- What a symbol table lists of the declarations at the top level, in source order: the name,
whether it is a function, and the address, which is the number of variables and parameters declared
before it in whatever scope. -/
def topLevel (ds : List Declaration) : List (Text × Bool × Option Nat) :=
  ds.zipIdx.filterMap fun (d, j) =>
    if d.scope = 0 then
      some (d.name, d.isFunction, if d.isFunction then none else some (variableCount (ds.take j)))
    else none

end Declaration

open Declaration

namespace Stmt

mutual

/-- What a statement of the scope `scope` declares, if the next function is the `next`-th. -/
def declarations (scope next : Nat) : Stmt → List Declaration
  | letVar _ name nameSpan _ => [⟨name, nameSpan, scope, false⟩]
  | ifElse _ _ thenBody elseBody hasElse =>
    let ds := declarationsAll scope next thenBody
    ds ++ if hasElse then declarationsAll scope (next + functions ds) elseBody else []
  | .while _ _ body => declarationsAll scope next body
  | function _ name nameSpan params body =>
    ⟨name, nameSpan, scope, true⟩ ::
      (params.map (fun p => ⟨p.name, p.span, next, false⟩) ++ declarationsAll next (next + 1) body)
  | _ => []

/-- What statements of the scope `scope` declare, if the next function is the `next`-th. -/
def declarationsAll (scope next : Nat) : List Stmt → List Declaration
  | [] => []
  | s :: rest =>
    let ds := s.declarations scope next
    ds ++ declarationsAll scope (next + functions ds) rest

end

end Stmt

/-- What a program declares, in source order. -/
def declarations (program : List Stmt) : List Declaration := Stmt.declarationsAll 0 1 program

/-! ### The first repetition -/

namespace Declaration

variable {d d' : Declaration} {ds ds' : List Declaration}

@[simp]
theorem functions_append (ds ds' : List Declaration) :
  functions (ds ++ ds') = functions ds + functions ds'
  := List.countP_append

theorem distinct_concat :
  Distinct (ds ++ [d]) ↔ Distinct ds ∧ ¬ d.Repeats ds
  := by
  rw [Distinct, List.pairwise_append, Repeats, Distinct]
  simp

theorem FirstRepeated.append (h : FirstRepeated ds d) (ds' : List Declaration) :
  FirstRepeated (ds ++ ds') d
  := by
  obtain ⟨before, later, rfl, hbefore, hd⟩ := h
  refine ⟨before, later ++ ds', ?_, hbefore, hd⟩
  rw [List.append_assoc, List.cons_append]

theorem FirstRepeated.not_distinct (h : FirstRepeated ds d) :
  ¬ Distinct ds
  := by
  obtain ⟨before, later, rfl, -, d', hd', hclash⟩ := h
  intro hdistinct
  apply (List.pairwise_append.mp hdistinct).2.2 d' hd' d List.mem_cons_self hclash

/-- There is only one first repetition. -/
theorem FirstRepeated.unique (h : FirstRepeated ds d) (h' : FirstRepeated ds d') :
  d = d'
  := by
  -- Were one of them further to the left, then the other would come after a repetition.
  have hmain : ∀ {d d' : Declaration} {before before' rest later later' : List Declaration},
      Distinct before' → d.Repeats before → before' = before ++ rest →
      d :: later = rest ++ d' :: later' → d = d' := by
    intro d d' before before' rest later later' hdistinct hd hbefore hrest
    cases rest with
    | nil => exact (List.cons.inj hrest).1
    | cons x rest =>
        obtain ⟨rfl, -⟩ := List.cons.inj hrest
        have hfirst : FirstRepeated before' d := by
          have hpairs := (List.pairwise_append.mp (hbefore ▸ hdistinct)).1
          exact ⟨before, rest, hbefore, hpairs, hd⟩
        cases hfirst.not_distinct hdistinct
  obtain ⟨before, later, rfl, hbefore, hd⟩ := h
  obtain ⟨before', later', heq, hbefore', hd'⟩ := h'
  obtain ⟨rest, hb, hrest⟩ | ⟨rest, hb, hrest⟩ := List.append_eq_append_iff.mp heq
  · apply hmain hbefore' hd hb hrest
  · apply (hmain hbefore hd' hb hrest).symm

theorem not_distinct_iff :
  ¬ Distinct ds ↔ ∃ d d', [d, d'].Sublist ds ∧ d.Clashes d'
  := by
  rw [Distinct, List.pairwise_iff_forall_sublist]
  push Not
  constructor
  · rintro ⟨d, d', hsub, hclash⟩
    exact ⟨d, d', hsub, hclash⟩
  · rintro ⟨d, d', hsub, hclash⟩
    exact ⟨d, d', hsub, hclash⟩

end Declaration

/-! ### Tables that record declarations -/

/-- What a declaration and its symbol have in common. -/
def Declaration.outline (d : Declaration) : Text × Nat × Bool := (d.name, d.scope, d.isFunction)

/-- What a symbol and its declaration have in common. -/
def Symbol.outline (s : Symbol) : Text × Nat × Bool := (s.name, s.scope, s.isFunction)

namespace SymbolTable

variable {t : SymbolTable} {scopes : List Nat} {n : Nat} {done : List Declaration}

/-- The table has recorded the declarations `done`, all distinct; `n` scopes were opened, of which
`scopes` are open. -/
def Records (t : SymbolTable) (scopes : List Nat) (n : Nat) (done : List Declaration) : Prop :=
  Distinct done ∧ ∃ m : Scopes, t.Represents m ∧ m.frames.map Frame.scope = scopes
    ∧ m.opened.length = n ∧ m.declared.map Symbol.outline = done.map Declaration.outline

theorem records_empty :
  Records {} [0] 1 []
  := ⟨List.Pairwise.nil, {}, represents_empty, rfl, rfl, rfl⟩

theorem Records.enterScope (h : t.Records scopes n done) :
  t.enterScope.Records (n :: scopes) (n + 1) done
  := by
  obtain ⟨hdistinct, m, hm, rfl, rfl, hdone⟩ := h
  exact ⟨hdistinct, m.enter, hm.enterScope, rfl, rfl, hdone⟩

theorem Records.exitScope {inner scope : Nat} (h : t.Records (inner :: scope :: scopes) n done) :
  t.exitScope.Records (scope :: scopes) n done
  := by
  obtain ⟨hdistinct, m, hm, hscopes, rfl, hdone⟩ := h
  have houter : m.outer.map Frame.scope = scope :: scopes := (List.cons.inj hscopes).2
  obtain ⟨g, outer, hcons, hg, hrest⟩ := List.map_eq_cons_iff.mp houter
  have hexit : m.exit = { m with inner := g, outer } := by rw [Scopes.exit, hcons]
  refine ⟨hdistinct, m.exit, hm.exitScope, ?_, ?_, ?_⟩
  · rw [hexit, ← hg, ← hrest]
    rfl
  · rw [hexit]
  · rw [hexit]
    apply hdone

/-- The innermost scope holds a name exactly if a declaration of it would be a repetition. -/
theorem repeats_iff_holds {m : Scopes} (hm : m.Regular)
    (hdone : m.declared.map Symbol.outline = done.map Declaration.outline) {d : Declaration}
    (hd : d.scope = m.inner.scope) :
  d.Repeats done ↔ m.inner.Holds d.name
  := by
  have hplaces := congrArg (List.map fun o => (o.1, o.2.1)) hdone
  rw [List.map_map, List.map_map] at hplaces
  have hsymbols : m.inner.Holds d.name ↔ (d.name, d.scope)
      ∈ m.declared.map ((fun o => (o.1, o.2.1)) ∘ Symbol.outline) := by
    simp [hm.holds_inner_iff, Symbol.outline, hd, and_comm]
  have hdeclarations : d.Repeats done ↔ (d.name, d.scope)
      ∈ done.map ((fun o => (o.1, o.2.1)) ∘ outline) := by
    simp [Repeats, Clashes, outline, and_comm]
  rw [hsymbols, hdeclarations, hplaces]

/-- The symbol that records the `j`-th declaration, with its address. -/
theorem map_declared_eq {m : Scopes} (hm : m.Regular)
    (hdone : m.declared.map Symbol.outline = done.map Declaration.outline) :
  m.declared.map (fun s => (s.outline, s.address))
    = done.zipIdx.map fun (d, j) =>
      (d.outline, if d.isFunction then none else some (variableCount (done.take j)))
  := by
  apply List.ext_getElem?
  intro j
  have hj := congrArg (·[j]?) hdone
  simp only [List.getElem?_map, List.getElem?_zipIdx, Nat.zero_add] at hj ⊢
  cases hs : m.declared[j]? with
  | none =>
      rw [hs] at hj
      rw [Option.map_eq_none_iff.mp hj.symm]
      rfl
  | some s =>
      rw [hs] at hj
      obtain ⟨d, hd, houtline⟩ := Option.map_eq_some_iff.mp hj.symm
      have hsplit : m.declared = m.declared.take j ++ s :: m.declared.drop (j + 1) := by
        obtain ⟨hlt, rfl⟩ := List.getElem?_eq_some_iff.mp hs
        rw [List.getElem_cons_drop, List.take_append_drop]
      have hcount : (m.declared.take j).countP (! ·.isFunction) = variableCount (done.take j) := by
        have htake := congrArg (fun os => (os.take j).countP (! ·.2.2)) hdone
        simp only [← List.map_take, List.countP_map] at htake
        apply htake
      have hfunction : s.isFunction = d.isFunction := congrArg (·.2.2) houtline.symm
      rw [hd, Option.map_some, Option.map_some, Option.map_some, houtline,
        hm.addressed _ _ _ hsplit, hcount, hfunction]

end SymbolTable

/-- What a symbol table lists of a symbol. -/
def Symbol.entry (s : Symbol) : Text × Bool × Option Nat := (s.name, s.isFunction, s.address)

/-- At the top level, a table lists what is declared there. -/
theorem SymbolTable.Records.map_entry_eq {t : SymbolTable} {n : Nat} {done : List Declaration}
    (h : t.Records [0] n done) :
  t.symbols.map Symbol.entry = topLevel done
  := by
  obtain ⟨-, m, hm, hscopes, -, hdone⟩ := h
  have hopen : ∀ scope, m.isOpen scope = (scope == 0) := by
    intro scope
    rw [Bool.eq_iff_iff, Scopes.isOpen_iff, beq_iff_eq, eq_comm]
    rw [← List.mem_map, hscopes, List.mem_singleton, eq_comm]
  have hpick := congrArg (List.filterMap fun x : (Text × Nat × Bool) × Option Nat =>
    if x.1.2.1 = 0 then some (x.1.1, x.1.2.2, x.2) else none) (map_declared_eq hm.regular hdone)
  rw [List.filterMap_map, List.filterMap_map] at hpick
  rw [hm.symbols, hm.regular.order, ← List.filterMap_eq_map, List.filterMap_filter]
  simp only [hopen, beq_iff_eq]
  apply hpick

/-! ### Generation makes the declarations -/

namespace Gen

open Fallible

theorem run_declare_of_ok {span : Span} {g : SymbolTable → Except SymbolError SymbolTable}
    {s : GenState} {table : SymbolTable} (h : g s.table = .ok table) :
  (declare span g).run s = (.ok (), { s with table })
  := by
  have hget : (get : Gen GenState).run s = (.ok s, s) := rfl
  rw [declare, run_bind, hget]
  dsimp only
  rw [h]
  rfl

theorem run_declare_of_error {span : Span} {g : SymbolTable → Except SymbolError SymbolTable}
    {s : GenState} {e : SymbolError} (h : g s.table = .error e) :
  (declare span g).run s = (.error (.redeclared e span), s)
  := by
  have hget : (get : Gen GenState).run s = (.ok s, s) := rfl
  rw [declare, run_bind, hget]
  dsimp only
  rw [h]
  rfl

end Gen

/-- From a table that has recorded some declarations and is in the scope `scope`, the computation
makes the declarations `ds`; `n` scopes were opened before it and `n'` after it.  If that gives a
repetition, then it fails with the error of the first one. -/
def Makes {α : Type} (scope n n' : Nat) (g : Gen α) (ds : List Declaration) : Prop :=
  ∀ s scopes done, s.table.Records (scope :: scopes) n done →
    (∃ a s', g.run s = (.ok a, s') ∧ s'.table.Records (scope :: scopes) n' (done ++ ds))
      ∨ ∃ d s', g.run s = (.error d.error, s') ∧ FirstRepeated (done ++ ds) d

namespace Makes

open Fallible

variable {α β : Type} {scope n n' n'' : Nat} {m : Gen α} {f : α → Gen β} {ds ds' : List Declaration}

/-- A computation that always succeeds and keeps the table makes no declaration. -/
theorem of_quiet (h : ∀ s, ∃ a s', m.run s = (.ok a, s') ∧ s'.table = s.table) :
  Makes scope n n m []
  := by
  intro s scopes done hs
  obtain ⟨a, s', hrun, htable⟩ := h s
  left
  use a, s', hrun
  rwa [htable, List.append_nil]

theorem pure (a : α) :
  Makes scope n n (Pure.pure a : Gen α) []
  := of_quiet fun s => ⟨a, s, rfl, rfl⟩

theorem emit (i : Instr) :
  Makes scope n n (Gen.emit i) []
  := of_quiet fun s => ⟨(), { s with code := s.code.push i }, rfl, rfl⟩

theorem newTemp :
  Makes scope n n Gen.newTemp []
  := of_quiet fun s => ⟨.ofTemp s.temps, { s with temps := s.temps + 1 }, rfl, rfl⟩

theorem newLabel :
  Makes scope n n Gen.newLabel []
  := of_quiet fun s => ⟨_, { s with labels := s.labels + 1 }, rfl, rfl⟩

theorem bind (hm : Makes scope n n' m ds) (hf : ∀ a, Makes scope n' n'' (f a) ds') :
  Makes scope n n'' (m >>= f) (ds ++ ds')
  := by
  intro s scopes done hs
  rw [run_bind, ← List.append_assoc]
  obtain ⟨a, s₁, hrun, hs₁⟩ | ⟨d, s₁, hrun, hd⟩ := hm s scopes done hs
  · rw [hrun]
    apply hf a s₁ scopes _ hs₁
  · rw [hrun]
    right
    exact ⟨d, s₁, rfl, hd.append ds'⟩

/-- What comes after a computation without declarations makes all of them. -/
theorem bind_quiet (hm : Makes scope n n m []) (hf : ∀ a, Makes scope n n' (f a) ds) :
  Makes scope n n' (m >>= f) ds
  := hm.bind hf

/-- What comes before a computation without declarations makes all of them. -/
theorem bind_of_quiet (hm : Makes scope n n' m ds) (hf : ∀ a, Makes scope n' n' (f a) []) :
  Makes scope n n' (m >>= f) ds
  := by
  rw [← List.append_nil ds]
  apply hm.bind hf

/-- A computation in a scope of its own makes its declarations there. -/
theorem inScope {body : Gen Unit} (h : Makes n (n + 1) n' body ds) :
  Makes scope n n' (Gen.inScope body) ds
  := by
  intro s scopes done hs
  have hinScope : ∀ r s', body.run { s with table := s.table.enterScope } = (r, s') →
      (Gen.inScope body).run s = (r, { s' with table := s'.table.exitScope }) := by
    intro r s' hrun
    change ((body.run { s with table := s.table.enterScope }).1, _) = _
    rw [hrun]
    exact congrArg (Prod.mk r) (congrArg (fun p : _ × GenState =>
      { p.2 with table := p.2.table.exitScope }) hrun)
  obtain ⟨a, s₁, hrun, hs₁⟩ | ⟨d, s₁, hrun, hd⟩ :=
    h { s with table := s.table.enterScope } (scope :: scopes) done hs.enterScope
  · left
    exact ⟨a, _, hinScope _ _ hrun, hs₁.exitScope⟩
  · right
    exact ⟨d, _, hinScope _ _ hrun, hd⟩

/-- Declaring a name makes its declaration, if the table refuses the name exactly when the innermost
scope holds it. -/
theorem declare {d : Declaration} {g : SymbolTable → Except SymbolError SymbolTable}
    (herror : ∀ t m, t.Represents m → m.inner.Holds d.name → g t = .error d.cause)
    (hok : ∀ t m, t.Represents m → ¬ m.inner.Holds d.name → ∃ t' sym, g t = .ok t'
      ∧ t'.Represents (m.declare sym) ∧ sym.outline = (d.name, m.inner.scope, d.isFunction)) :
  Makes d.scope n n (Gen.declare d.span g) [d]
  := by
  intro s scopes done ⟨hdistinct, m, hm, hscopes, hn, hdone⟩
  have hscope : d.scope = m.inner.scope := (List.cons.inj hscopes).1.symm
  have hrepeats := SymbolTable.repeats_iff_holds hm.regular hdone hscope
  by_cases hholds : m.inner.Holds d.name
  · right
    use d, s
    constructor
    · apply Gen.run_declare_of_error (herror _ _ hm hholds)
    · exact ⟨done, [], rfl, hdistinct, hrepeats.mpr hholds⟩
  · left
    obtain ⟨t', sym, ht', hm', hsym⟩ := hok _ _ hm hholds
    have hdeclare : m.declare sym
        = { m with
            inner := m.inner.add sym (by rwa [show sym.name = d.name from congrArg (·.1) hsym])
            declared := m.declared ++ [sym] } := by
      rw [Scopes.declare, dif_neg]
    refine ⟨(), { s with table := t' }, ?_, ?_, m.declare sym, hm', ?_, ?_, ?_⟩
    · apply Gen.run_declare_of_ok ht'
    · apply distinct_concat.mpr ⟨hdistinct, fun hd => hholds (hrepeats.mp hd)⟩
    · rw [hdeclare]
      apply hscopes
    · rw [hdeclare]
      apply hn
    · rw [hdeclare, List.map_append, List.map_append, hdone, List.map_singleton, hsym, ← hscope]
      rfl

theorem declareVariable (name : Text) (span : Span) (type : SymbolTable → DataType) :
  Makes scope n n (Gen.declare span fun t => t.declareVariable name (type t))
    [⟨name, span, scope, false⟩]
  := by
  apply declare (d := ⟨name, span, scope, false⟩)
  · intro t m hm hholds
    apply hm.declareVariable_of_holds hholds
  · intro t m hm hholds
    obtain ⟨t', ht', hm'⟩ := hm.declareVariable_of_not_holds hholds (type t)
    exact ⟨t', _, ht', hm', rfl⟩

theorem declareFunction (name : Text) (span : Span) (type : DataType) (params : List DataType) :
  Makes scope n n (Gen.declare span fun t => t.declareFunction name type params)
    [⟨name, span, scope, true⟩]
  := by
  apply declare (d := ⟨name, span, scope, true⟩)
  · intro t m hm hholds
    apply hm.declareFunction_of_holds hholds
  · intro t m hm hholds
    obtain ⟨t', ht', hm'⟩ := hm.declareFunction_of_not_holds hholds type params
    exact ⟨t', _, ht', hm', rfl⟩

theorem declareParams (params : List Param) :
  Makes scope n n
    (params.forM fun p => Gen.declare p.span fun t => t.declareVariable p.name .number)
    (params.map fun p => ⟨p.name, p.span, scope, false⟩)
  := by
  induction params with
  | nil => apply pure
  | cons p params ih =>
      apply (declareVariable p.name p.span fun _ => .number).bind
      intro _
      apply ih

end Makes

/-! ### Expressions declare nothing -/

namespace Expr

theorem makes_generateArgs {scope n : Nat} {es : List Expr}
    (h : ∀ e ∈ es, Makes scope n n e.generate []) :
  Makes scope n n (generateArgs es) []
  := by
  induction es with
  | nil => apply Makes.pure
  | cons e es ih =>
      obtain ⟨he, hes⟩ := List.forall_mem_cons.mp h
      rw [generateArgs]
      apply he.bind_quiet
      intro x
      apply (ih hes).bind_quiet
      intro xs
      apply Makes.pure

/-- Code that goes on with an instruction for a new temporary declares nothing. -/
theorem makes_instr {scope n : Nat} (i : Operand → Instr) :
  Makes scope n n (do
    let t ← Gen.newTemp
    Gen.emit (i t)
    return t) []
  := by
  apply Makes.newTemp.bind_quiet
  intro t
  apply (Makes.emit _).bind_quiet
  intro _
  apply Makes.pure

end Expr

theorem Grammar.Derives.makes {part : Part} {ts : List Token} {es : List Expr}
    (h : Derives part ts es) (scope n : Nat) :
  ∀ e ∈ es, Makes scope n n e.generate []
  := by
  induction h with
  | tighter _ ih | argument _ ih => apply ih
  | arguments _ _ _ ih ih' => simp_all
  | binary hop _ _ ih ih' =>
      rw [List.forall_mem_singleton] at ih ih' ⊢
      rw [Expr.generate.eq_6 _ _ _ _ hop.ne_other]
      apply ih.bind_quiet
      intro l
      apply ih'.bind_quiet
      intro r
      apply Expr.makes_instr
  | unary hop _ ih =>
      rw [List.forall_mem_singleton] at ih ⊢
      rw [Expr.generate.eq_8 _ _ _ hop.ne_other]
      apply ih.bind_quiet
      intro x
      apply Expr.makes_instr
  | literal hkind =>
      rw [List.forall_mem_singleton, Expr.generate.eq_2 _ _ _ hkind.ne_other]
      apply Makes.pure
  | ident =>
      rw [List.forall_mem_singleton, Expr.generate]
      apply Makes.pure
  | group _ _ _ ih =>
      rw [List.forall_mem_singleton] at ih ⊢
      rw [Expr.generate]
      apply ih
  | callNone =>
      rw [List.forall_mem_singleton, Expr.generate]
      apply (Expr.makes_generateArgs (by simp)).bind_quiet
      intro xs
      apply Expr.makes_instr
  | call _ _ _ _ ih =>
      rw [List.forall_mem_singleton, Expr.generate]
      apply (Expr.makes_generateArgs ih).bind_quiet
      intro xs
      apply Expr.makes_instr

theorem Grammar.IsExpr.makes {ts : List Token} {e : Expr} (h : IsExpr ts e) (scope n : Nat) :
  Makes scope n n e.generate []
  := Derives.makes h scope n e List.mem_cons_self

/-! ### Statements -/

namespace Stmt

/-- Generating the statement makes its declarations, in whatever scope it stands. -/
def MakesOwn (st : Stmt) : Prop :=
  ∀ scope next, Makes scope next (next + functions (st.declarations scope next)) st.generate
    (st.declarations scope next)

theorem makes_generateAll {ss : List Stmt} (h : ∀ st ∈ ss, st.MakesOwn) (scope next : Nat) :
  Makes scope next (next + functions (declarationsAll scope next ss)) (generateAll ss)
    (declarationsAll scope next ss)
  := by
  induction ss generalizing next with
  | nil => apply Makes.pure
  | cons st ss ih =>
      obtain ⟨hst, hss⟩ := List.forall_mem_cons.mp h
      rw [declarationsAll, functions_append, ← Nat.add_assoc, generateAll]
      apply (hst scope next).bind
      intro _
      apply ih hss

theorem makesOwn_ifElse {span : Span} {cond : Expr} {thenBody elseBody : List Stmt}
    {hasElse : Bool} (hcond : ∀ scope n, Makes scope n n cond.generate [])
    (hthen : ∀ st ∈ thenBody, st.MakesOwn) (helse : ∀ st ∈ elseBody, st.MakesOwn) :
  (ifElse span cond thenBody elseBody hasElse).MakesOwn
  := by
  intro scope next
  rw [declarations, functions_append, ← Nat.add_assoc, generate]
  apply (hcond scope next).bind_quiet
  intro c
  apply Makes.newLabel.bind_quiet
  intro elseLabel
  apply Makes.newLabel.bind_quiet
  intro endLabel
  apply (Makes.emit _).bind_quiet
  intro _
  apply (makes_generateAll hthen scope next).bind
  intro _
  apply (Makes.emit _).bind_quiet
  intro _
  apply (Makes.emit _).bind_quiet
  intro _
  cases hasElse with
  | true =>
      apply (makes_generateAll helse _ _).bind_of_quiet
      intro _
      apply Makes.emit
  | false => apply Makes.emit

theorem makesOwn_function {span nameSpan : Span} {name : Text} {params : List Param}
    {body : List Stmt} (hbody : ∀ st ∈ body, st.MakesOwn) :
  (function span name nameSpan params body).MakesOwn
  := by
  intro scope next
  have hcount : next + functions ((function span name nameSpan params body).declarations scope next)
      = next + 1 + functions (declarationsAll next (next + 1) body) := by
    have hparams : functions (params.map fun p => ⟨p.name, p.span, next, false⟩) = 0 := by
      rw [functions, List.countP_eq_zero]
      simp
    have hhead : ∀ ds, functions (⟨name, nameSpan, scope, true⟩ :: ds) = functions ds + 1 :=
      fun ds => List.countP_cons_of_pos rfl
    rw [declarations, hhead, functions_append, hparams]
    omega
  rw [hcount, declarations, generate, ← List.singleton_append]
  apply (Makes.declareFunction name nameSpan _ _).bind
  intro _
  apply (Makes.emit _).bind_quiet
  intro _
  apply Makes.inScope
  apply (Makes.declareParams params).bind
  intro _
  apply (makes_generateAll hbody _ _).bind_of_quiet
  intro _
  apply Makes.emit

end Stmt

theorem Grammar.Statements.makesOwn {ts rest : List Token} {ss : List Stmt}
    (h : Statements ts rest ss) :
  ∀ st ∈ ss, st.MakesOwn
  := by
  induction h with
  | nil => simp
  | cons _ _ ih ih' => simp_all
  | letVar _ _ _ _ he =>
      rw [List.forall_mem_singleton]
      intro scope next
      rw [Stmt.generate]
      apply (he.makes scope next).bind_quiet
      intro x
      apply (Makes.declareVariable _ _ _).bind_of_quiet
      intro _
      apply Makes.emit
  | assign _ _ _ he | retValue _ _ he | print _ _ he =>
      rw [List.forall_mem_singleton]
      intro scope next
      rw [Stmt.generate]
      apply (he.makes scope next).bind_quiet
      intro x
      apply Makes.emit
  | ifThen _ _ _ hc _ _ _ _ ih =>
      rw [List.forall_mem_singleton]
      apply Stmt.makesOwn_ifElse hc.makes ih
      simp
  | ifElse _ _ _ hc _ _ _ _ _ _ _ _ ih ih' =>
      rw [List.forall_mem_singleton]
      apply Stmt.makesOwn_ifElse hc.makes ih ih'
  | «while» _ _ _ hc _ _ _ _ ih =>
      rw [List.forall_mem_singleton]
      intro scope next
      rw [Stmt.declarations, Stmt.generate]
      apply Makes.newLabel.bind_quiet
      intro startLabel
      apply Makes.newLabel.bind_quiet
      intro endLabel
      apply (Makes.emit _).bind_quiet
      intro _
      apply (hc.makes scope next).bind_quiet
      intro c
      apply (Makes.emit _).bind_quiet
      intro _
      apply (Stmt.makes_generateAll ih scope next).bind_of_quiet
      intro _
      apply (Makes.emit _).bind_quiet
      intro _
      apply Makes.emit
  | function _ _ _ _ _ _ _ _ _ ih =>
      rw [List.forall_mem_singleton]
      apply Stmt.makesOwn_function ih
  | ret =>
      rw [List.forall_mem_singleton]
      intro scope next
      rw [Stmt.generate]
      apply Makes.emit
  | expr _ he =>
      rw [List.forall_mem_singleton]
      intro scope next
      rw [Stmt.generate]
      apply (he.makes scope next).bind_quiet
      intro x
      apply Makes.pure

/-- Generating a program of the grammar with an empty table makes its declarations, or fails at the
first repetition. -/
theorem generate_makes {ts : List Token} {program : List Stmt} (h : IsProgram ts program) :
  (∃ p table n, generate program {} = (.ok p, table) ∧ table.Records [0] n (declarations program))
    ∨ ∃ d table, generate program {} = (.error d.error, table)
      ∧ FirstRepeated (declarations program) d
  := by
  obtain ⟨u, s, hrun, hs⟩ | ⟨d, s, hrun, hd⟩ :=
    Stmt.makes_generateAll (Statements.makesOwn h) 0 1 {} [] [] SymbolTable.records_empty
  · left
    refine ⟨s.code.toList, s.table, _, ?_, hs⟩
    rw [generate, hrun]
    rfl
  · right
    refine ⟨d, s.table, ?_, hd⟩
    rw [generate, hrun]
    rfl

/-- For every parse without errors and an empty table, generation fails if and only if some scope
declares a name twice.  The error is then that of the first repetition: it points at the name, and
it is the one for functions or the one for variables according to what is declared.  If generation
succeeds, then the table lists the declarations at the top level. -/
theorem generate_fails_iff_redeclared {o : ParseOptions} {file : FileId} {lexed : List Lexed}
    (hcancel : o.cancelled = false) (hvalid : ∀ tok ∈ fileTokens lexed, tok.kind ≠ .invalid)
    (herrors : (parse o file 0 lexed).errors = 0) :
  let program := (parse o file 0 lexed).tree.statements
  let ds := declarations program
  ((∃ e, (generate program {}).1 = .error e) ↔ ∃ d d', [d, d'].Sublist ds ∧ d.Clashes d')
    ∧ (∀ e, (generate program {}).1 = .error e → ∃ d, FirstRepeated ds d
      ∧ e.code = (if d.isFunction then .redeclaredFunction else .redeclaredVariable)
      ∧ e.span = d.span ∧ e.isRedeclaration ∧ e.message = d.cause.message)
    ∧ ((∃ p, (generate program {}).1 = .ok p) →
      (generate program {}).2.symbols.map Symbol.entry = topLevel ds)
  := by
  intro program ds
  obtain ⟨p, table, n, hgenerate, hrecords⟩ | ⟨d, table, hgenerate, hd⟩ :=
    generate_makes (Parser.isProgram_of_parse hcancel hvalid herrors)
  · refine ⟨?_, ?_, ?_⟩
    · rw [hgenerate, ← not_distinct_iff]
      constructor
      · rintro ⟨e, he⟩
        cases he
      · intro hrepeated
        cases hrepeated hrecords.1
    · rw [hgenerate]
      intro e he
      cases he
    · intro _
      rw [hgenerate]
      apply hrecords.map_entry_eq
  · refine ⟨?_, ?_, ?_⟩
    · rw [hgenerate, ← not_distinct_iff]
      constructor
      · intro _
        apply hd.not_distinct
      · intro _
        exact ⟨_, rfl⟩
    · rw [hgenerate]
      rintro e ⟨⟩
      refine ⟨d, hd, ?_, rfl, ?_, rfl⟩
      · rw [error, cause]
        cases d.isFunction <;> rfl
      · rw [error, cause]
        cases d.isFunction <;> rfl
    · rintro ⟨p, hp⟩
      rw [hgenerate] at hp
      cases hp

/-- A parameter may have the name of a variable around its function, but a variable of the body may
not have the name of the parameter. -/
def shadowingParameter : File := { content := "let x = 1 function f(x) \x7b let x = 2 \x7d" }

/-- The statements of `shadowingParameter`. -/
def shadowingParameterBody : List Stmt :=
  [.letVar ⟨0, 0, 9⟩ "x" ⟨0, 4, 5⟩ (.literal ⟨0, 8, 9⟩ .number "1"),
    .function ⟨0, 10, 37⟩ "f" ⟨0, 19, 20⟩ [⟨"x", ⟨0, 21, 22⟩⟩]
      [.letVar ⟨0, 26, 35⟩ "x" ⟨0, 30, 31⟩ (.literal ⟨0, 34, 35⟩ .number "2")]]

theorem isProgram_shadowingParameter :
  IsProgram (fileTokens shadowingParameter.lex) shadowingParameterBody
  := by
  have htokens : fileTokens shadowingParameter.lex
      = [⟨.kwLet, ⟨0, 0, 3⟩, "let"⟩, ⟨.ident, ⟨0, 4, 5⟩, "x"⟩, ⟨.assign, ⟨0, 6, 7⟩, "="⟩,
          ⟨.number, ⟨0, 8, 9⟩, "1"⟩]
        ++ (⟨.kwFunction, ⟨0, 10, 18⟩, "function"⟩ :: ⟨.ident, ⟨0, 19, 20⟩, "f"⟩ ::
          ⟨.lparen, ⟨0, 20, 21⟩, "("⟩ :: ([⟨.ident, ⟨0, 21, 22⟩, "x"⟩] ++
          ⟨.rparen, ⟨0, 22, 23⟩, ")"⟩ :: ⟨.lbrace, ⟨0, 24, 25⟩, [123]⟩ ::
          ([⟨.kwLet, ⟨0, 26, 29⟩, "let"⟩, ⟨.ident, ⟨0, 30, 31⟩, "x"⟩, ⟨.assign, ⟨0, 32, 33⟩, "="⟩,
            ⟨.number, ⟨0, 34, 35⟩, "2"⟩] ++ [⟨.rbrace, ⟨0, 36, 37⟩, [125]⟩]))) := by
    decide +kernel
  have hlet : ∀ {kw name eq num : Token} {rest : List Token}, kw.kind = .kwLet →
      name.kind = .ident → eq.kind = .assign → num.kind = .number → Ends [num] rest →
      next rest ≠ some .semicolon → Statements [kw, name, eq, num] rest
        [.letVar (spanOf [kw, name, eq, num]) name.text name.span
          (.literal num.span .number num.text)] := by
    intro kw name eq num rest hkw hname heq hnum hends hsemi
    have hvalue : Derives (.operand 7) [num] [.literal num.span .number num.text] := by
      apply Derives.literal
      rw [hnum]
      apply Constant.number
    have hall : [kw, name, eq, num] = kw :: name :: eq :: ([num] ++ []) := rfl
    exact .letVar hall hkw hname heq (hvalue.of_le (by decide)) hends (.inr ⟨rfl, hsemi⟩)
  rw [htokens]
  apply Statements.cons
  · exact hlet rfl rfl rfl rfl (Parser.endsAt_zero.mp (.of_next rfl (by decide) rfl)) (by decide)
  · have hbody := @hlet ⟨.kwLet, ⟨0, 26, 29⟩, "let"⟩ ⟨.ident, ⟨0, 30, 31⟩, "x"⟩
      ⟨.assign, ⟨0, 32, 33⟩, "="⟩ ⟨.number, ⟨0, 34, 35⟩, "2"⟩ [⟨.rbrace, ⟨0, 36, 37⟩, [125]⟩]
      rfl rfl rfl rfl (Parser.endsAt_zero.mp (.of_next rfl (by decide) rfl)) (by decide)
    exact .function rfl rfl rfl rfl (.inr (.one rfl)) rfl rfl hbody rfl

theorem shadowingParameter_fails :
  (∀ tok ∈ fileTokens shadowingParameter.lex, tok.kind ≠ .invalid)
    ∧ (parse {} 0 0 shadowingParameter.lex).errors = 0
    ∧ ∃ e, (generate (parse {} 0 0 shadowingParameter.lex).tree.statements {}).1 = .error e
      ∧ e.code = .redeclaredVariable ∧ e.span = ⟨0, 30, 31⟩ ∧ e.isRedeclaration
  := by
  have hvalid : ∀ tok ∈ fileTokens shadowingParameter.lex, tok.kind ≠ .invalid := by decide +kernel
  have hparse := @Parser.parse_of_isProgram {} 0 0 _ _ rfl rfl isProgram_shadowingParameter
  have hfails := generate_fails_iff_redeclared rfl hvalid hparse.1
  rw [hparse.2] at hfails
  have hdeclarations : declarations shadowingParameterBody
      = [⟨"x", ⟨0, 4, 5⟩, 0, false⟩, ⟨"f", ⟨0, 19, 20⟩, 0, true⟩, ⟨"x", ⟨0, 21, 22⟩, 1, false⟩]
        ++ [⟨"x", ⟨0, 30, 31⟩, 1, false⟩] := rfl
  have hfirst : FirstRepeated (declarations shadowingParameterBody)
      ⟨"x", ⟨0, 30, 31⟩, 1, false⟩ := by
    exact ⟨_, [], hdeclarations, by decide, ⟨"x", ⟨0, 21, 22⟩, 1, false⟩, by simp, rfl, rfl⟩
  have hclash := not_distinct_iff.mp hfirst.not_distinct
  obtain ⟨e, he⟩ := hfails.1.mpr hclash
  obtain ⟨d, hd, hcode, hspan, hredeclared, -⟩ := hfails.2.1 e he
  obtain rfl := hd.unique hfirst
  rw [hparse.2]
  exact ⟨hvalid, hparse.1, e, he, hcode, hspan, hredeclared⟩

end ThreeAddress
