import ThreeAddress.Proofs.Code.Declarations

/-!
# Generation leaves the open scopes as they were

`TableAction.Matched` says of a list of actions that it leaves every scope that it enters, and no
other.  Such a list changes nothing in a stack of scopes but that it adds symbols to the innermost
one.  What generation does to a symbol table is such a list of actions, whatever it generates and
wherever it fails: a failure in a function passes through the end of each scope around it.
-/

namespace ThreeAddress

/-- The actions leave every scope that they enter, and no other. -/
inductive TableAction.Matched : List TableAction → Prop
  | nil : Matched []
  | declareVar (name type) : Matched [.declareVar name type]
  | declareFun (name type params) : Matched [.declareFun name type params]
  | scope {actions} : Matched actions → Matched (.enter :: actions ++ [.exit])
  | append {actions actions'} : Matched actions → Matched actions' → Matched (actions ++ actions')

/-! ### What matched actions do to scopes -/

namespace Scopes

variable {m m' m'' : Scopes}

/-- The same scopes are open, and symbols were added to the innermost one only. -/
structure Extends (m m' : Scopes) : Prop where
  outer : m'.outer = m.outer
  scope : m'.inner.scope = m.inner.scope
  symbols : m.inner.symbols <+: m'.inner.symbols

theorem Extends.refl (m : Scopes) :
  m.Extends m
  := ⟨rfl, rfl, List.prefix_rfl⟩

theorem Extends.trans (h : m.Extends m') (h' : m'.Extends m'') :
  m.Extends m''
  := ⟨h'.outer.trans h.outer, h'.scope.trans h.scope, h.symbols.trans h'.symbols⟩

theorem extends_declare (m : Scopes) (s : Symbol) :
  m.Extends (m.declare s)
  := by
  rw [declare]
  split
  · apply Extends.refl
  · exact ⟨rfl, rfl, List.prefix_append _ _⟩

/-- Whatever was added to a scope that is entered goes when it is left. -/
theorem Extends.exit (h : m.enter.Extends m') :
  m.Extends m'.exit
  := by
  have houter : m'.outer = m.inner :: m.outer := h.outer
  rw [Scopes.exit, houter]
  exact ⟨rfl, rfl, List.prefix_rfl⟩

/-- Matched actions add symbols to the innermost scope only. -/
theorem extends_foldl {actions : List TableAction} (h : TableAction.Matched actions) (m : Scopes) :
  m.Extends (actions.foldl act m)
  := by
  induction h generalizing m with
  | nil => apply Extends.refl
  | declareVar name type => apply extends_declare
  | declareFun name type params => apply extends_declare
  | scope _ ih =>
      rw [List.foldl_concat, List.foldl_cons]
      apply (ih m.enter).exit
  | append _ _ ih ih' =>
      rw [List.foldl_append]
      apply (ih m).trans (ih' _)

end Scopes

namespace SymbolTable

/-- The table `t'` has the open scopes of `t` and its symbols, and after them others of the current
scope. -/
structure Extends (t t' : SymbolTable) : Prop where
  current : t'.current = t.current
  scopeStack : t'.scopeStack = t.scopeStack
  symbols : ∃ added, t'.symbols = t.symbols ++ added ∧ ∀ s ∈ added, s.scope = t.current

theorem Represents.extends {t t' : SymbolTable} {m m' : Scopes} (h : t.Represents m)
    (h' : t'.Represents m') (hext : m.Extends m') :
  t.Extends t'
  := by
  obtain ⟨added, hadded⟩ := hext.symbols
  constructor
  · rw [h'.current, hext.scope, h.current]
  · rw [h'.scopeStack, h.scopeStack, Scopes.frames, Scopes.frames, List.map_cons, List.map_cons,
      hext.outer, hext.scope]
  · refine ⟨added, ?_, ?_⟩
    · rw [h'.symbols, h.symbols, Scopes.live_eq, Scopes.live_eq, hext.outer, ← hadded,
        List.append_assoc]
    · intro s hs
      have hmem : s ∈ m'.inner.symbols := by
        rw [← hadded]
        apply List.mem_append_right _ hs
      rw [h'.regular.own _ List.mem_cons_self s hmem, hext.scope, h.current]

/-- After whatever history, matched actions add symbols of the current scope to a table. -/
theorem extends_foldl_after {actions : List TableAction} (h : TableAction.Matched actions)
    (history : List TableAction) :
  (after history).Extends (actions.foldl act (after history))
  := by
  have hrep := represents_after (history ++ actions)
  rw [after, Scopes.after, List.foldl_append, List.foldl_append] at hrep
  apply (represents_after history).extends hrep (Scopes.extends_foldl h _)

end SymbolTable

/-! ### What generation does to the table -/

namespace Gen

/-- Whether it fails or not, the computation leaves every scope that it enters. -/
def Balanced {α : Type} (g : Gen α) : Prop :=
  ∀ s, ∃ actions, TableAction.Matched actions
    ∧ (g.run s).2.table = actions.foldl SymbolTable.act s.table

namespace Balanced

open Fallible

variable {α β : Type} {g : Gen α} {f : α → Gen β}

theorem of_quiet (h : ∀ s, (g.run s).2.table = s.table) :
  Balanced g
  := fun s => ⟨[], .nil, h s⟩

theorem pure (a : α) :
  Balanced (Pure.pure a : Gen α)
  := of_quiet fun _ => rfl

theorem throw (e : GenError) :
  Balanced (MonadExcept.throw e : Gen α)
  := of_quiet fun _ => rfl

theorem emit (i : Instr) :
  Balanced (Gen.emit i)
  := of_quiet fun _ => rfl

theorem newTemp :
  Balanced Gen.newTemp
  := of_quiet fun _ => rfl

theorem newLabel :
  Balanced Gen.newLabel
  := of_quiet fun _ => rfl

theorem bind (hg : Balanced g) (hf : ∀ a, Balanced (f a)) :
  Balanced (g >>= f)
  := by
  intro s
  obtain ⟨actions, hmatched, htable⟩ := hg s
  rw [run_bind]
  rcases hrun : g.run s with ⟨e | a, s₁⟩
  · rw [hrun] at htable
    exact ⟨actions, hmatched, htable⟩
  · rw [hrun] at htable
    obtain ⟨actions', hmatched', htable'⟩ := hf a s₁
    refine ⟨actions ++ actions', hmatched.append hmatched', ?_⟩
    rw [List.foldl_append, ← htable]
    exact htable'

/-- A computation that does one thing to the table, or fails to do it. -/
theorem declare {span : Span} {d : SymbolTable → Except SymbolError SymbolTable}
    (h : ∀ t : SymbolTable, ∃ a, TableAction.Matched [a] ∧ (d t).toOption.getD t = t.act a) :
  Balanced (Gen.declare span d)
  := by
  intro s
  obtain ⟨a, hmatched, hact⟩ := h s.table
  refine ⟨[a], hmatched, ?_⟩
  rw [List.foldl_cons, List.foldl_nil, ← hact]
  cases hd : d s.table with
  | error e =>
      rw [run_declare_of_error hd]
      rfl
  | ok table =>
      rw [run_declare_of_ok hd]
      rfl

theorem declareVariable (span : Span) (name : Text) (type : SymbolTable → DataType) :
  Balanced (Gen.declare span fun t => t.declareVariable name (type t))
  := declare fun t => ⟨.declareVar name (type t), .declareVar _ _, rfl⟩

theorem declareFunction (span : Span) (name : Text) (type : DataType) (params : List DataType) :
  Balanced (Gen.declare span fun t => t.declareFunction name type params)
  := declare fun _ => ⟨.declareFun name type params, .declareFun _ _ _, rfl⟩

/-- A scope is left also if its body fails. -/
theorem inScope {body : Gen Unit} (h : Balanced body) :
  Balanced (Gen.inScope body)
  := by
  intro s
  obtain ⟨actions, hmatched, htable⟩ := h { s with table := s.table.enterScope }
  refine ⟨.enter :: actions ++ [.exit], hmatched.scope, ?_⟩
  rw [List.foldl_concat, List.foldl_cons]
  exact congrArg SymbolTable.exitScope htable

theorem forM {xs : List β} {step : β → Gen Unit} (h : ∀ x, Balanced (step x)) :
  Balanced (xs.forM step)
  := by
  induction xs with
  | nil => apply pure
  | cons x xs ih => exact (h x).bind fun _ => ih

/-- Code that goes on with an instruction for a new temporary. -/
theorem instr (i : Operand → Instr) :
  Balanced (do
    let t ← Gen.newTemp
    Gen.emit (i t)
    return t)
  := newTemp.bind fun _ => (emit _).bind fun _ => pure _

end Balanced

end Gen

namespace Expr

mutual

/-- The value of an expression is computed without a change to the table. -/
theorem balanced_generate (e : Expr) :
  e.generate.Balanced
  := by
  cases e with
  | literal span kind value =>
      cases kind with
      | other code => apply Gen.Balanced.throw
      | _ => apply Gen.Balanced.pure
  | ident span name => apply Gen.Balanced.pure
  | group span inner =>
      rw [generate]
      apply balanced_generate inner
  | binary span op left right =>
      have hcode : ∀ op, Gen.Balanced (do
          let l ← left.generate
          let r ← right.generate
          let t ← Gen.newTemp
          Gen.emit { kind := .binary op, target := t, left := l, right := r }
          return t) := by
        intro op
        apply (balanced_generate left).bind
        intro l
        apply (balanced_generate right).bind
        intro r
        apply Gen.Balanced.instr
      cases op with
      | other code => apply Gen.Balanced.throw
      | _ => apply hcode
  | unary span op operand =>
      have hcode : ∀ op, Gen.Balanced (do
          let x ← operand.generate
          let t ← Gen.newTemp
          Gen.emit { kind := .unary op, target := t, source := x }
          return t) := by
        intro op
        apply (balanced_generate operand).bind
        intro x
        apply Gen.Balanced.instr
      cases op with
      | other code => apply Gen.Balanced.throw
      | _ => apply hcode
  | call span name nameSpan args =>
      rw [generate]
      apply (balanced_generateArgs args).bind
      intro xs
      apply Gen.Balanced.instr
  | unknown span code => apply Gen.Balanced.throw
  | missing id => apply Gen.Balanced.throw

theorem balanced_generateArgs (es : List Expr) :
  (generateArgs es).Balanced
  := by
  cases es with
  | nil => apply Gen.Balanced.pure
  | cons e es =>
      rw [generateArgs]
      apply (balanced_generate e).bind
      intro x
      apply (balanced_generateArgs es).bind
      intro xs
      apply Gen.Balanced.pure

end

end Expr

namespace Stmt

mutual

/-- A statement is generated with matched actions on the table. -/
theorem balanced_generate (st : Stmt) :
  st.generate.Balanced
  := by
  cases st with
  | letVar span name nameSpan value =>
      rw [generate]
      apply value.balanced_generate.bind
      intro x
      apply (Gen.Balanced.declareVariable _ _ _).bind
      intro _
      apply Gen.Balanced.emit
  | assign span name nameSpan value =>
      rw [generate]
      apply value.balanced_generate.bind
      intro x
      apply Gen.Balanced.emit
  | ifElse span cond thenBody elseBody hasElse =>
      rw [generate]
      apply cond.balanced_generate.bind
      intro c
      apply Gen.Balanced.newLabel.bind
      intro elseLabel
      apply Gen.Balanced.newLabel.bind
      intro endLabel
      apply (Gen.Balanced.emit _).bind
      intro _
      apply (balanced_generateAll thenBody).bind
      intro _
      apply (Gen.Balanced.emit _).bind
      intro _
      apply (Gen.Balanced.emit _).bind
      intro _
      cases hasElse with
      | true =>
          apply (balanced_generateAll elseBody).bind
          intro _
          apply Gen.Balanced.emit
      | false => apply Gen.Balanced.emit
  | «while» span cond body =>
      rw [generate]
      apply Gen.Balanced.newLabel.bind
      intro startLabel
      apply Gen.Balanced.newLabel.bind
      intro endLabel
      apply (Gen.Balanced.emit _).bind
      intro _
      apply cond.balanced_generate.bind
      intro c
      apply (Gen.Balanced.emit _).bind
      intro _
      apply (balanced_generateAll body).bind
      intro _
      apply (Gen.Balanced.emit _).bind
      intro _
      apply Gen.Balanced.emit
  | function span name nameSpan params body =>
      rw [generate]
      apply (Gen.Balanced.declareFunction _ _ _ _).bind
      intro _
      apply (Gen.Balanced.emit _).bind
      intro _
      -- Both the parameters and the body may fail, in the scope that was entered.
      apply Gen.Balanced.inScope
      apply (Gen.Balanced.forM fun p => Gen.Balanced.declareVariable _ _ _).bind
      intro _
      apply (balanced_generateAll body).bind
      intro _
      apply Gen.Balanced.emit
  | ret span value =>
      cases value with
      | none => apply Gen.Balanced.emit
      | some value =>
          rw [generate]
          apply value.balanced_generate.bind
          intro x
          apply Gen.Balanced.emit
  | print span value =>
      rw [generate]
      apply value.balanced_generate.bind
      intro x
      apply Gen.Balanced.emit
  | expr span value =>
      rw [generate]
      apply value.balanced_generate.bind
      intro x
      apply Gen.Balanced.pure
  | unknown span code => apply Gen.Balanced.throw
  | missing id => apply Gen.Balanced.throw

theorem balanced_generateAll (ss : List Stmt) :
  (generateAll ss).Balanced
  := by
  cases ss with
  | nil => apply Gen.Balanced.pure
  | cons st ss =>
      rw [generateAll]
      apply (balanced_generate st).bind
      intro _
      apply balanced_generateAll ss

end

end Stmt

/-- Whatever the statements are, their generation does matched actions to the table. -/
theorem generate_matched (program : List Stmt) (t : SymbolTable) :
  ∃ actions, TableAction.Matched actions
    ∧ (generate program t).2 = actions.foldl SymbolTable.act t
  := Stmt.balanced_generateAll program { table := t }

/-- The code that generation returns: none if it fails. -/
def returnedCode (r : Except GenError Program) : Program := r.toOption.getD []

/-- Generation from whatever tree and with whatever table leaves the open scopes and the symbols as
they were and adds symbols of the current scope only, also if it fails.  If it fails, it returns no
code. -/
theorem generate_leaves_scopes_balanced (tree : Tree) (history : List TableAction) :
  (SymbolTable.after history).Extends (generate tree.statements (SymbolTable.after history)).2
    ∧ ∀ e, (generate tree.statements (SymbolTable.after history)).1 = .error e
      → returnedCode (generate tree.statements (SymbolTable.after history)).1 = []
  := by
  obtain ⟨actions, hmatched, htable⟩ :=
    generate_matched tree.statements (SymbolTable.after history)
  constructor
  · rw [htable]
    apply SymbolTable.extends_foldl_after hmatched
  · intro e he
    rw [he]
    rfl

/-- A function inside a function that declares a parameter twice. -/
def repeatedParameter : Tree :=
  let (t, inner) := ({} : Tree).addStmt {} (.function "g" {} [⟨"y", {}⟩, ⟨"y", {}⟩] [])
  let (t, outer) := t.addStmt {} (.function "f" {} [⟨"x", {}⟩] [inner])
  { t with program := [outer] }

/-- Generation fails two scopes deep, and of what was declared the outer function alone remains. -/
theorem repeatedParameter_balanced :
  ∃ e t, generate repeatedParameter.statements (.after [.declareVar "v" .string]) = (.error e, t)
    ∧ t.symbols.map (·.name) = ["v", "f"]
    ∧ (SymbolTable.after [.declareVar "v" .string]).Extends t
    ∧ returnedCode (.error e) = []
  := by
  obtain ⟨hextends, hcode⟩ :=
    generate_leaves_scopes_balanced repeatedParameter [.declareVar "v" .string]
  refine ⟨.redeclared (.redeclaredVariable "y") {}, _, rfl, ?_, hextends, hcode _ rfl⟩
  decide

end ThreeAddress
