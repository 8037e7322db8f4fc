import Mathlib.Data.List.Nodup
import Mathlib.Data.List.Perm.Subperm
import ThreeAddress.Code.Generate
import ThreeAddress.Proofs.Code.Labels
import ThreeAddress.Proofs.Fallible
import ThreeAddress.Proofs.Text.Numeral

/-!
# The shape of generated code

`Computes k es xs c k'` says that the code `c` computes the expressions `es` from left to right and
leaves their values in the operands `xs`, with the temporaries from `k` up to `k'`.
`Performs k l ss c k' l'` says that the code `c` carries out the statements `ss`, with the
temporaries from `k` up to `k'` and the labels from `l` up to `l'`.  A successful generation appends
code of this shape, so what holds of all code of this shape holds of all generated code.
-/

namespace ThreeAddress

/-- The label of number `n`. -/
def numberedLabel (n : Nat) : Text := "L" ++ Text.ofNat n

theorem numberedLabel_injective :
  Function.Injective numberedLabel
  := fun _ _ => Text.append_ofNat_injective "L"

/-- The code `c` computes the expressions `es` into the operands `xs`. -/
inductive Computes : Nat → List Expr → List Operand → Program → Nat → Prop
  | nil {k} : Computes k [] [] [] k
  | cons {k k₁ k' e es x xs c c'} :
      Computes k [e] [x] c k₁ → Computes k₁ es xs c' k' → Computes k (e :: es) (x :: xs) (c ++ c') k'
  | literal {k span kind value} :
      (∀ code, kind ≠ .other code) →
      Computes k [.literal span kind value] [.literal kind value] [] k
  | ident {k span name} : Computes k [.ident span name] [.var name] [] k
  | group {k k' span e x c} : Computes k [e] [x] c k' → Computes k [.group span e] [x] c k'
  | binary {k k' span op l r x y c} :
      (∀ code, op ≠ .other code) → Computes k [l, r] [x, y] c k' →
      Computes k [.binary span op l r] [.ofTemp k']
        (c ++ [{ kind := .binary op, target := .ofTemp k', left := x, right := y }]) (k' + 1)
  | unary {k k' span op e x c} :
      (∀ code, op ≠ .other code) → Computes k [e] [x] c k' →
      Computes k [.unary span op e] [.ofTemp k']
        (c ++ [{ kind := .unary op, target := .ofTemp k', source := x }]) (k' + 1)
  | call {k k' span name nameSpan es xs c} :
      Computes k es xs c k' →
      Computes k [.call span name nameSpan es] [.ofTemp k']
        (c ++ [{ kind := .call, target := .ofTemp k', func := name, args := xs }]) (k' + 1)

/-- The code `c` carries out the statements `ss`. -/
inductive Performs : Nat → Nat → List Stmt → Program → Nat → Nat → Prop
  | nil {k l} : Performs k l [] [] k l
  | cons {k l k₁ l₁ k' l' s ss c c'} :
      Performs k l [s] c k₁ l₁ → Performs k₁ l₁ ss c' k' l' →
      Performs k l (s :: ss) (c ++ c') k' l'
  | letVar {k l k' span name nameSpan value x c} :
      Computes k [value] [x] c k' →
      Performs k l [.letVar span name nameSpan value]
        (c ++ [{ kind := .assign, target := .var name, source := x }]) k' l
  | assign {k l k' span name nameSpan value x c} :
      Computes k [value] [x] c k' →
      Performs k l [.assign span name nameSpan value]
        (c ++ [{ kind := .assign, target := .var name, source := x }]) k' l
  | ifElse {k l k₁ k₂ l₂ k' l' span cond x thenBody elseBody hasElse c c₁ c₂} :
      Computes k [cond] [x] c k₁ → Performs k₁ (l + 2) thenBody c₁ k₂ l₂ →
      Performs k₂ l₂ (if hasElse then elseBody else []) c₂ k' l' →
      Performs k l [.ifElse span cond thenBody elseBody hasElse]
        (c ++ { kind := .jumpIfFalse, cond := x, label := numberedLabel l } ::
          (c₁ ++ { kind := .jump, label := numberedLabel (l + 1) } ::
            { kind := .label, label := numberedLabel l } ::
              (c₂ ++ [{ kind := .label, label := numberedLabel (l + 1) }]))) k' l'
  | while {k l k₁ k' l' span cond x body c c₁} :
      Computes k [cond] [x] c k₁ → Performs k₁ (l + 2) body c₁ k' l' →
      Performs k l [.while span cond body]
        ({ kind := .label, label := numberedLabel l } ::
          (c ++ { kind := .jumpIfFalse, cond := x, label := numberedLabel (l + 1) } ::
            (c₁ ++ [{ kind := .jump, label := numberedLabel l },
              { kind := .label, label := numberedLabel (l + 1) }]))) k' l'
  | function {k l k' l' span name nameSpan params body c} :
      Performs k l body c k' l' →
      Performs k l [.function span name nameSpan params body]
        ({ kind := .functionStart, func := name, params := params.map (·.name) } ::
          (c ++ [{ kind := .functionEnd }])) k' l'
  | ret {k l span} : Performs k l [.ret span none] [{ kind := .ret }] k l
  | retValue {k l k' span value x c} :
      Computes k [value] [x] c k' →
      Performs k l [.ret span (some value)]
        (c ++ [{ kind := .ret, source := x, hasValue := true }]) k' l
  | print {k l k' span value x c} :
      Computes k [value] [x] c k' →
      Performs k l [.print span value] (c ++ [{ kind := .print, source := x }]) k' l
  | expr {k l k' span value x c} :
      Computes k [value] [x] c k' → Performs k l [.expr span value] c k' l

/-! ### Steps of generation -/

namespace Gen

open Fallible

variable {s s' : GenState}

theorem emit_ok {i : Instr} {u : Unit} :
  (emit i).run s = (.ok u, s') ↔ { s with code := s.code.push i } = s'
  := run_modify_ok

theorem newTemp_ok {x : Operand} :
  newTemp.run s = (.ok x, s') ↔ .ofTemp s.temps = x ∧ { s with temps := s.temps + 1 } = s'
  := by
  rw [newTemp, run_modifyGet_ok, Prod.mk.injEq]

theorem newLabel_ok {label : Text} :
  newLabel.run s = (.ok label, s')
    ↔ numberedLabel s.labels = label ∧ { s with labels := s.labels + 1 } = s'
  := by
  rw [newLabel, run_modifyGet_ok, Prod.mk.injEq, numberedLabel]

/-- Declaring a name changes the table only. -/
theorem declare_ok {span : Span} {f : SymbolTable → Except SymbolError SymbolTable} {u : Unit}
    (h : (declare span f).run s = (.ok u, s')) :
  ∃ table, { s with table } = s'
  := by
  rw [declare, run_bind_ok] at h
  obtain ⟨_, _, hget, h⟩ := h
  obtain ⟨rfl, rfl⟩ := run_get_ok.1 hget
  split at h
  · rename_i table _
    use table
    apply run_modify_ok.1 h
  · cases run_throw_ok h

/-- Declaring names one after another changes the table only. -/
theorem forM_declare_ok {ps : List Param} {u : Unit}
    (h : (ps.forM fun p => declare p.span fun t => t.declareVariable p.name .number).run s
      = (.ok u, s')) :
  ∃ table, { s with table } = s'
  := by
  induction ps generalizing s with
  | nil =>
      use s.table
      apply (run_pure_ok.1 h).2
  | cons p ps ih =>
      rw [List.forM, run_bind_ok] at h
      obtain ⟨_, s₁, hp, h⟩ := h
      obtain ⟨table, rfl⟩ := declare_ok hp
      apply ih h

/-- A body that succeeds in a scope of its own succeeds in the state with that scope, and the table
alone differs afterwards. -/
theorem inScope_ok {body : Gen Unit} {u : Unit} (h : (inScope body).run s = (.ok u, s')) :
  ∃ s₁ table, body.run { s with table := s.table.enterScope } = (.ok u, s₁)
    ∧ { s₁ with table } = s'
  := by
  obtain ⟨h, hs⟩ := Prod.mk.inj h
  use (body.run { s with table := s.table.enterScope }).2, s'.table
  constructor
  · rw [← h]
    rfl
  · rw [← hs]
    rfl

end Gen

/-! ### Generation has this shape -/

namespace Expr

open Fallible Gen

mutual

/-- An expression that is generated is computed by the code that is appended. -/
theorem computes_generate (e : Expr) {s s' : GenState} {x : Operand}
    (h : e.generate.run s = (.ok x, s')) :
  ∃ c, s'.code.toList = s.code.toList ++ c ∧ s'.labels = s.labels
    ∧ Computes s.temps [e] [x] c s'.temps
  := by
  cases e with
  | literal span kind value =>
      by_cases hk : ∃ code, kind = .other code
      · obtain ⟨code, rfl⟩ := hk
        cases run_throw_ok h
      · push Not at hk
        rw [generate.eq_2 _ _ _ hk] at h
        obtain ⟨rfl, rfl⟩ := run_pure_ok.1 h
        use []
        simp [Computes.literal hk]
  | ident span name =>
      obtain ⟨rfl, rfl⟩ := run_pure_ok.1 h
      use []
      simp [Computes.ident]
  | group span inner =>
      rw [generate] at h
      obtain ⟨c, hcode, hlabels, hc⟩ := computes_generate inner h
      use c, hcode, hlabels
      apply Computes.group hc
  | binary span op left right =>
      by_cases hop : ∃ code, op = .other code
      · obtain ⟨code, rfl⟩ := hop
        cases run_throw_ok h
      · push Not at hop
        rw [generate.eq_6 _ _ _ _ hop] at h
        simp only [run_bind_ok, newTemp_ok, emit_ok, run_pure_ok] at h
        obtain ⟨l, s₁, hl, r, s₂, hr, t, _, ⟨rfl, rfl⟩, _, _, rfl, rfl, rfl⟩ := h
        obtain ⟨c₁, hcode₁, hlabels₁, hc₁⟩ := computes_generate left hl
        obtain ⟨c₂, hcode₂, hlabels₂, hc₂⟩ := computes_generate right hr
        refine ⟨_, ?_, ?_, Computes.binary hop (hc₁.cons (hc₂.cons .nil))⟩
        · simp [hcode₁, hcode₂]
        · simp [hlabels₁, hlabels₂]
  | unary span op operand =>
      by_cases hop : ∃ code, op = .other code
      · obtain ⟨code, rfl⟩ := hop
        cases run_throw_ok h
      · push Not at hop
        rw [generate.eq_8 _ _ _ hop] at h
        simp only [run_bind_ok, newTemp_ok, emit_ok, run_pure_ok] at h
        obtain ⟨x, s₁, hx, t, _, ⟨rfl, rfl⟩, _, _, rfl, rfl, rfl⟩ := h
        obtain ⟨c, hcode, hlabels, hc⟩ := computes_generate operand hx
        refine ⟨_, ?_, ?_, Computes.unary hop hc⟩
        · simp [hcode]
        · simp [hlabels]
  | call span name nameSpan args =>
      rw [generate] at h
      simp only [run_bind_ok, newTemp_ok, emit_ok, run_pure_ok] at h
      obtain ⟨xs, s₁, hxs, t, _, ⟨rfl, rfl⟩, _, _, rfl, rfl, rfl⟩ := h
      obtain ⟨c, hcode, hlabels, hc⟩ := computes_generateArgs args hxs
      refine ⟨_, ?_, ?_, Computes.call hc⟩
      · simp [hcode]
      · simp [hlabels]
  | unknown span code => cases run_throw_ok h
  | missing id => cases run_throw_ok h

/-- Arguments that are generated are computed by the code that is appended. -/
theorem computes_generateArgs (es : List Expr) {s s' : GenState} {xs : List Operand}
    (h : (generateArgs es).run s = (.ok xs, s')) :
  ∃ c, s'.code.toList = s.code.toList ++ c ∧ s'.labels = s.labels
    ∧ Computes s.temps es xs c s'.temps
  := by
  cases es with
  | nil =>
      obtain ⟨rfl, rfl⟩ := run_pure_ok.1 h
      use []
      simp [Computes.nil]
  | cons e es =>
      rw [generateArgs] at h
      simp only [run_bind_ok, run_pure_ok] at h
      obtain ⟨x, s₁, hx, xs, _, hxs, rfl, rfl⟩ := h
      obtain ⟨c₁, hcode₁, hlabels₁, hc₁⟩ := computes_generate e hx
      obtain ⟨c₂, hcode₂, hlabels₂, hc₂⟩ := computes_generateArgs es hxs
      use c₁ ++ c₂
      refine ⟨?_, ?_, hc₁.cons hc₂⟩
      · rw [hcode₂, hcode₁, List.append_assoc]
      · rw [hlabels₂, hlabels₁]

end

end Expr

namespace Stmt

open Fallible Gen

/-- No statements are generated like an alternative that is missing. -/
theorem generateAll_ite {b : Bool} {ss : List Stmt} {m : Gen Unit} :
  (if b then (do generateAll ss; m) else m) = (do generateAll (if b then ss else []); m)
  := by
  cases b with
  | true => rfl
  | false => rfl

mutual

/-- A statement that is generated is carried out by the code that is appended. -/
theorem performs_generate (st : Stmt) {s s' : GenState} {u : Unit}
    (h : st.generate.run s = (.ok u, s')) :
  ∃ c, s'.code.toList = s.code.toList ++ c ∧ Performs s.temps s.labels [st] c s'.temps s'.labels
  := by
  cases st with
  | letVar span name nameSpan value =>
      rw [generate] at h
      simp only [run_bind_ok, emit_ok] at h
      obtain ⟨x, s₁, hx, _, s₂, hd, rfl⟩ := h
      obtain ⟨table, rfl⟩ := declare_ok hd
      obtain ⟨c, hcode, hlabels, hc⟩ := value.computes_generate hx
      use c ++ [{ kind := .assign, target := .var name, source := x }]
      constructor
      · simp [hcode]
      · simp only [hlabels]
        apply Performs.letVar hc
  | assign span name nameSpan value =>
      rw [generate] at h
      simp only [run_bind_ok, emit_ok] at h
      obtain ⟨x, s₁, hx, rfl⟩ := h
      obtain ⟨c, hcode, hlabels, hc⟩ := value.computes_generate hx
      use c ++ [{ kind := .assign, target := .var name, source := x }]
      constructor
      · simp [hcode]
      · simp only [hlabels]
        apply Performs.assign hc
  | ifElse span cond thenBody elseBody hasElse =>
      rw [generate] at h
      simp only [run_bind_ok, newLabel_ok, emit_ok] at h
      obtain ⟨x, s₁, hx, _, _, ⟨rfl, rfl⟩, _, _, ⟨rfl, rfl⟩, _, _, rfl, _, s₂, hthen, _, _, rfl,
        _, _, rfl, h⟩ := h
      rw [generateAll_ite] at h
      simp only [run_bind_ok, emit_ok] at h
      obtain ⟨_, s₃, helse, rfl⟩ := h
      obtain ⟨c, hcode, hlabels, hc⟩ := cond.computes_generate hx
      obtain ⟨c₁, hcode₁, hc₁⟩ := performs_generateAll thenBody hthen
      obtain ⟨c₂, hcode₂, hc₂⟩ : ∃ c, s₃.code.toList = _ ++ c
          ∧ Performs _ _ (if hasElse then elseBody else []) c s₃.temps s₃.labels := by
        cases hasElse with
        | true => apply performs_generateAll elseBody helse
        | false =>
            obtain ⟨-, rfl⟩ := run_pure_ok.1 helse
            refine ⟨[], ?_, .nil⟩
            rw [List.append_nil]
      rw [hlabels] at hc₁
      refine ⟨_, ?_, .ifElse hc hc₁ hc₂⟩
      simp [hcode, hcode₁, hcode₂, hlabels]
  | «while» span cond body =>
      rw [generate] at h
      simp only [run_bind_ok, newLabel_ok, emit_ok] at h
      obtain ⟨_, _, ⟨rfl, rfl⟩, _, _, ⟨rfl, rfl⟩, _, _, rfl, x, s₁, hx, _, _, rfl, _, s₂, hbody,
        _, _, rfl, rfl⟩ := h
      obtain ⟨c, hcode, hlabels, hc⟩ := cond.computes_generate hx
      obtain ⟨c₁, hcode₁, hc₁⟩ := performs_generateAll body hbody
      rw [hlabels] at hc₁
      refine ⟨_, ?_, .while hc hc₁⟩
      simp [hcode, hcode₁]
  | function span name nameSpan params body =>
      rw [generate] at h
      simp only [run_bind_ok, emit_ok] at h
      obtain ⟨_, s₁, hd, _, _, rfl, h⟩ := h
      obtain ⟨table, rfl⟩ := declare_ok hd
      obtain ⟨s₂, table', hscope, rfl⟩ := inScope_ok h
      simp only [run_bind_ok, emit_ok] at hscope
      obtain ⟨_, s₃, hparams, _, s₄, hbody, rfl⟩ := hscope
      obtain ⟨table'', rfl⟩ := forM_declare_ok hparams
      obtain ⟨c, hcode, hc⟩ := performs_generateAll body hbody
      refine ⟨_, ?_, .function hc⟩
      simp [hcode]
  | ret span value =>
      cases value with
      | none =>
          obtain rfl := emit_ok.1 h
          use [{ kind := .ret }]
          constructor
          · simp
          · apply Performs.ret
      | some value =>
          rw [generate] at h
          simp only [run_bind_ok, emit_ok] at h
          obtain ⟨x, s₁, hx, rfl⟩ := h
          obtain ⟨c, hcode, hlabels, hc⟩ := value.computes_generate hx
          use c ++ [{ kind := .ret, source := x, hasValue := true }]
          constructor
          · simp [hcode]
          · simp only [hlabels]
            apply Performs.retValue hc
  | print span value =>
      rw [generate] at h
      simp only [run_bind_ok, emit_ok] at h
      obtain ⟨x, s₁, hx, rfl⟩ := h
      obtain ⟨c, hcode, hlabels, hc⟩ := value.computes_generate hx
      use c ++ [{ kind := .print, source := x }]
      constructor
      · simp [hcode]
      · simp only [hlabels]
        apply Performs.print hc
  | expr span value =>
      rw [generate] at h
      simp only [run_bind_ok, run_pure_ok] at h
      obtain ⟨x, s₁, hx, -, rfl⟩ := h
      obtain ⟨c, hcode, hlabels, hc⟩ := value.computes_generate hx
      use c, hcode
      rw [hlabels]
      apply Performs.expr hc
  | unknown span code => cases run_throw_ok h
  | missing id => cases run_throw_ok h

/-- Statements that are generated are carried out by the code that is appended. -/
theorem performs_generateAll (ss : List Stmt) {s s' : GenState} {u : Unit}
    (h : (generateAll ss).run s = (.ok u, s')) :
  ∃ c, s'.code.toList = s.code.toList ++ c ∧ Performs s.temps s.labels ss c s'.temps s'.labels
  := by
  cases ss with
  | nil =>
      obtain ⟨-, rfl⟩ := run_pure_ok.1 h
      use []
      simp [Performs.nil]
  | cons st ss =>
      rw [generateAll] at h
      simp only [run_bind_ok] at h
      obtain ⟨_, s₁, hst, hss⟩ := h
      obtain ⟨c₁, hcode₁, hc₁⟩ := performs_generate st hst
      obtain ⟨c₂, hcode₂, hc₂⟩ := performs_generateAll ss hss
      use c₁ ++ c₂
      refine ⟨?_, hc₁.cons hc₂⟩
      rw [hcode₂, hcode₁, List.append_assoc]

end

end Stmt

/-- The generated code of a program carries out its statements. -/
theorem performs_of_generate {program : List Stmt} {table table' : SymbolTable} {p : Program}
    (h : generate program table = (.ok p, table')) :
  ∃ k l, Performs 0 0 program p k l
  := by
  rw [generate] at h
  rcases hrun : (Stmt.generateAll program).run { table } with ⟨e | u, s⟩
  · rw [hrun] at h
    cases (Prod.mk.inj h).1
  · rw [hrun] at h
    obtain ⟨hcode, -⟩ := Prod.mk.inj h
    obtain ⟨c, hc, hp⟩ := Stmt.performs_generateAll program hrun
    use s.temps, s.labels
    obtain rfl : s.code.toList = p := Except.ok.inj hcode
    rw [hc]
    apply hp

/-! ### Temporaries and labels are used once -/

theorem Computes.le {k k' : Nat} {es : List Expr} {xs : List Operand} {c : Program}
    (h : Computes k es xs c k') :
  k ≤ k'
  := by
  induction h with
  | nil | literal | ident => apply Nat.le_refl
  | cons _ _ ih ih' => apply Nat.le_trans ih ih'
  | group _ ih => apply ih
  | binary _ _ ih | unary _ _ ih | call _ ih => omega

theorem Computes.labelNames_eq {k k' : Nat} {es : List Expr} {xs : List Operand} {c : Program}
    (h : Computes k es xs c k') :
  c.labelNames = []
  := by
  induction h with
  | nil | literal | ident => rfl
  | cons _ _ ih ih' => rw [Program.labelNames_append, ih, ih', List.append_nil]
  | group _ ih => apply ih
  | binary _ _ ih | unary _ _ ih | call _ ih =>
      simp [ih]

/-- The labels of the code `c` are those of the numbers `js`, which are distinct and lie between `l`
and `l'`. -/
def LabelsBetween (l l' : Nat) (c : Program) (js : List Nat) : Prop :=
  c.labelNames = js.map numberedLabel ∧ js.Nodup ∧ ∀ j ∈ js, l ≤ j ∧ j < l'

theorem Performs.le {k l k' l' : Nat} {ss : List Stmt} {c : Program}
    (h : Performs k l ss c k' l') :
  l ≤ l'
  := by
  induction h with
  | nil | letVar | assign | ret | retValue | print | expr => apply Nat.le_refl
  | cons _ _ ih ih' => apply Nat.le_trans ih ih'
  | ifElse _ _ _ ih ih' => omega
  | «while» _ _ ih => omega
  | function _ ih => apply ih

/-- Code that carries out statements has each of its labels once. -/
theorem Performs.labelsBetween {k l k' l' : Nat} {ss : List Stmt} {c : Program}
    (h : Performs k l ss c k' l') :
  ∃ js, LabelsBetween l l' c js
  := by
  induction h with
  | nil | ret => exact ⟨[], rfl, List.nodup_nil, by simp⟩
  | letVar hc | assign hc | retValue hc | print hc | expr hc =>
      use []
      simp [LabelsBetween, hc.labelNames_eq]
  | cons h h' ih ih' =>
      obtain ⟨js, hnames, hnodup, hjs⟩ := ih
      obtain ⟨js', hnames', hnodup', hjs'⟩ := ih'
      use js ++ js'
      refine ⟨by simp [hnames, hnames'], ?_, ?_⟩
      · apply List.nodup_append'.mpr
        refine ⟨hnodup, hnodup', ?_⟩
        intro j hj hj'
        have := hjs j hj
        have := hjs' j hj'
        omega
      · intro j hj
        have := h.le
        have := h'.le
        obtain hj | hj := List.mem_append.mp hj
        · have := hjs j hj
          omega
        · have := hjs' j hj
          omega
  | @ifElse k l k₁ k₂ l₂ k' l' _ _ _ _ _ _ c c₁ c₂ hc h h' ih ih' =>
      obtain ⟨js, hnames, hnodup, hjs⟩ := ih
      obtain ⟨js', hnames', hnodup', hjs'⟩ := ih'
      have := h.le
      have := h'.le
      use js ++ l :: (js' ++ [l + 1])
      refine ⟨?_, ?_, ?_⟩
      · simp [hc.labelNames_eq, hnames, hnames']
      · grind [List.nodup_append]
      · grind
  | @«while» k l k₁ k' l' _ _ _ _ c c₁ hc h ih =>
      obtain ⟨js, hnames, hnodup, hjs⟩ := ih
      have := h.le
      use l :: (js ++ [l + 1])
      refine ⟨?_, ?_, ?_⟩
      · simp [hc.labelNames_eq, hnames]
      · grind [List.nodup_append]
      · grind
  | function _ ih =>
      obtain ⟨js, hnames, hnodup, hjs⟩ := ih
      use js
      refine ⟨?_, hnodup, hjs⟩
      simp [hnames]

/-- The labels of a generated program are distinct. -/
theorem Performs.labelNames_nodup {k l k' l' : Nat} {ss : List Stmt} {c : Program}
    (h : Performs k l ss c k' l') :
  c.labelNames.Nodup
  := by
  obtain ⟨js, hnames, hnodup, -⟩ := h.labelsBetween
  rw [hnames]
  apply hnodup.map numberedLabel_injective

theorem Performs.length_labelNames {k l k' l' : Nat} {ss : List Stmt} {c : Program}
    (h : Performs k l ss c k' l') :
  l + c.labelNames.length = l'
  := by
  induction h with
  | nil | ret => rfl
  | letVar hc | assign hc | retValue hc | print hc | expr hc => simp [hc.labelNames_eq]
  | cons _ _ ih ih' =>
      rw [Program.labelNames_append, List.length_append]
      omega
  | ifElse hc _ _ ih ih' =>
      simp [hc.labelNames_eq]
      omega
  | «while» hc _ ih =>
      simp [hc.labelNames_eq]
      omega
  | function _ ih => simp [ih]

/-- The labels of a generated program are those of the first numbers. -/
theorem labelNames_perm_of_generate {program : List Stmt} {table table' : SymbolTable} {p : Program}
    (h : generate program table = (.ok p, table')) :
  p.labelNames.Perm ((List.range p.labelNames.length).map numberedLabel)
  := by
  obtain ⟨k, l, hp⟩ := performs_of_generate h
  obtain ⟨js, hnames, hnodup, hjs⟩ := hp.labelsBetween
  have hlength := hp.length_labelNames
  rw [hnames, List.length_map] at hlength ⊢
  apply List.Perm.map
  apply (List.subperm_of_subset hnodup _).perm_of_length_le
  · apply Nat.le_of_eq List.length_range
  · intro j hj
    have := (hjs j hj).2
    rw [List.mem_range]
    omega

/-- A generated program has the labels of the first numbers only. -/
theorem numberedLabel_mem_labelNames_iff {program : List Stmt} {table table' : SymbolTable}
    {p : Program} (h : generate program table = (.ok p, table')) {n : Nat} :
  numberedLabel n ∈ p.labelNames ↔ n < p.labelNames.length
  := by
  rw [(labelNames_perm_of_generate h).mem_iff,
    List.mem_map_of_injective numberedLabel_injective, List.mem_range]

/-! ### The operands of generated code -/

/-- A literal, a variable or a temporary. -/
inductive Operand.Made : Operand → Prop
  | literal (kind : LiteralKind) (text : Text) : Made (.literal kind text)
  | var (name : Text) : Made (.var name)
  | temp (n : Nat) : Made (.ofTemp n)

/-- Whether the instruction computes the value of an operator or a call. -/
def Instr.isComputation (i : Instr) : Bool :=
  match i.kind with
  | .binary _ | .unary _ | .call => true
  | _ => false

/-- The operands of the instruction are literals, variables and temporaries; a computation writes a
temporary, and its operator exists. -/
structure Instr.Made (i : Instr) : Prop where
  operands : ∀ x ∈ i.operands, x.Made
  target : i.isComputation → ∃ n, i.target = .ofTemp n
  operator : ∀ code, i.kind ≠ .binary (.other code)

theorem Computes.made_operands {k k' : Nat} {es : List Expr} {xs : List Operand} {c : Program}
    (h : Computes k es xs c k') :
  ∀ x ∈ xs, x.Made
  := by
  induction h with
  | nil => simp
  | cons _ _ ih ih' =>
      rw [List.forall_mem_cons]
      use ih _ List.mem_cons_self
  | group _ ih => apply ih
  | literal | ident | binary | unary | call =>
      rw [List.forall_mem_singleton]
      constructor

/-- The code of expressions consists of computations. -/
theorem Computes.made {k k' : Nat} {es : List Expr} {xs : List Operand} {c : Program}
    (h : Computes k es xs c k') :
  ∀ i ∈ c, i.isComputation ∧ i.Made
  := by
  induction h with
  | nil | literal | ident => simp
  | cons _ _ ih ih' =>
      rw [List.forall_mem_append]
      use ih
  | group _ ih => apply ih
  | @binary _ k' _ _ _ _ _ _ _ hop h ih =>
      rw [List.forall_mem_append, List.forall_mem_singleton]
      use ih, rfl
      refine ⟨List.forall_mem_cons.mpr ⟨.temp k', h.made_operands⟩, fun _ => ⟨k', rfl⟩, ?_⟩
      intro code hkind
      apply hop code (InstrKind.binary.inj hkind)
  | @unary _ k' _ _ _ _ _ _ h ih | @call _ k' _ _ _ _ _ _ h ih =>
      rw [List.forall_mem_append, List.forall_mem_singleton]
      use ih, rfl
      refine ⟨List.forall_mem_cons.mpr ⟨.temp k', h.made_operands⟩, fun _ => ⟨k', rfl⟩, ?_⟩
      intro code hkind
      cases hkind

theorem Instr.made_of_operands {i : Instr} (hkind : i.isComputation = false)
    (h : ∀ x ∈ i.operands, x.Made) :
  i.Made
  := by
  use h
  · intro htrue
    rw [hkind] at htrue
    cases htrue
  · intro code hbinary
    rw [isComputation, hbinary] at hkind
    cases hkind

/-- The operands of generated code are literals, variables and temporaries. -/
theorem Performs.made {k l k' l' : Nat} {ss : List Stmt} {c : Program}
    (h : Performs k l ss c k' l') :
  ∀ i ∈ c, i.Made
  := by
  have hlabel : ∀ label, Instr.Made { kind := .label, label } :=
    fun label => Instr.made_of_operands rfl (by simp [Instr.operands, Instr.defs, Instr.uses])
  have hjump : ∀ label, Instr.Made { kind := .jump, label } :=
    fun label => Instr.made_of_operands rfl (by simp [Instr.operands, Instr.defs, Instr.uses])
  induction h with
  | nil => simp
  | cons _ _ ih ih' =>
      rw [List.forall_mem_append]
      use ih
  | letVar h | assign h =>
      rw [List.forall_mem_append, List.forall_mem_singleton]
      use fun i hi => (h.made i hi).2
      apply Instr.made_of_operands rfl
      apply List.forall_mem_cons.mpr ⟨.var _, h.made_operands⟩
  | retValue h | print h =>
      rw [List.forall_mem_append, List.forall_mem_singleton]
      use fun i hi => (h.made i hi).2
      apply Instr.made_of_operands rfl
      apply h.made_operands
  | ret =>
      rw [List.forall_mem_singleton]
      apply Instr.made_of_operands rfl
      simp [Instr.operands, Instr.defs, Instr.uses]
  | expr h => apply fun i hi => (h.made i hi).2
  | ifElse h _ _ ih ih' =>
      simp only [List.forall_mem_append, List.forall_mem_cons]
      exact ⟨fun i hi => (h.made i hi).2, Instr.made_of_operands rfl h.made_operands, ih, hjump _,
        hlabel _, ih', hlabel _, by simp⟩
  | «while» h _ ih =>
      simp only [List.forall_mem_append, List.forall_mem_cons]
      exact ⟨hlabel _, fun i hi => (h.made i hi).2, Instr.made_of_operands rfl h.made_operands, ih,
        hjump _, hlabel _, by simp⟩
  | @function _ _ _ _ _ _ _ params _ _ _ ih =>
      rw [List.forall_mem_cons, List.forall_mem_append, List.forall_mem_singleton]
      refine ⟨?_, ih, ?_⟩
      · apply Instr.made_of_operands rfl
        intro x hx
        simp only [Instr.operands, Instr.defs, Instr.uses, List.append_nil, List.mem_map] at hx
        obtain ⟨name, -, rfl⟩ := hx
        apply Operand.Made.var
      · apply Instr.made_of_operands rfl
        simp [Instr.operands, Instr.defs, Instr.uses]

theorem made_of_generate {program : List Stmt} {table table' : SymbolTable} {p : Program}
    (h : generate program table = (.ok p, table')) :
  ∀ i ∈ p, i.Made
  := by
  obtain ⟨k, l, hp⟩ := performs_of_generate h
  apply hp.made

end ThreeAddress
