import ThreeAddress.Proofs.Code.Execution
import ThreeAddress.Proofs.Code.Fragments
import ThreeAddress.Proofs.Dict

/-!
# Generated code does what the program does

A plain program declares and calls no functions, returns from nowhere and uses no lazy operator.  If
running a plain program ends without a fault, then executing its generated code ends as well, at the
end of the code, with the same output and the same values of all variables.

The code of an expression changes only temporaries of its own, so an operand that was computed
before keeps its value.  The code of a statement starts and ends in states that agree with the run.
-/

namespace ThreeAddress

/-! ### Plain programs -/

/-- Whether an expression has no calls and no lazy operators. -/
def Expr.isPlain : Expr → Bool
  | .call .. => false
  | .binary _ op left right => op != .and && op != .or && left.isPlain && right.isPlain
  | .unary _ _ operand => operand.isPlain
  | .group _ inner => inner.isPlain
  | _ => true

namespace Stmt

mutual

/-- Whether a statement has no functions, calls, returns and lazy operators. -/
def isPlain : Stmt → Bool
  | .function .. | .ret .. => false
  | .letVar _ _ _ value | .assign _ _ _ value | .print _ value | .expr _ value => value.isPlain
  | .ifElse _ cond thenBody elseBody _ => cond.isPlain && arePlain thenBody && arePlain elseBody
  | .while _ cond body => cond.isPlain && arePlain body
  | _ => true

/-- Whether all of the statements are plain. -/
def arePlain : List Stmt → Bool
  | [] => true
  | s :: rest => s.isPlain && arePlain rest

end

end Stmt

/-! ### Expressions -/

/-- The store `store'` has the variables and the temporaries below `k` from `store`. -/
def Store.Keeps (k : Nat) (store store' : Store) : Prop :=
  (∀ name, store' (.var name) = store (.var name))
    ∧ ∀ j : Nat, j < k → store' (.temp j) = store (.temp j)

namespace Store.Keeps

theorem refl (k : Nat) (store : Store) :
  Keeps k store store
  := ⟨fun _ => rfl, fun _ _ => rfl⟩

theorem trans {k k' : Nat} {s₁ s₂ s₃ : Store} (h : Keeps k s₁ s₂) (h' : Keeps k' s₂ s₃)
    (hk : k ≤ k') :
  Keeps k s₁ s₃
  := by
  constructor
  · intro name
    rw [h'.1, h.1]
  · intro j hj
    rw [h'.2 j (by omega), h.2 j hj]

/-- Writing the temporary `k'` keeps those below it. -/
theorem update {k k' : Nat} (hk : k ≤ k') (store : Store) (v : Option Value) :
  Keeps k store (Function.update store (.temp k') v)
  := by
  constructor
  · intro name
    apply Function.update_of_ne
    simp
  · intro j hj
    apply Function.update_of_ne
    simp only [ne_eq, Slot.temp.injEq, Int.natCast_inj]
    omega

end Store.Keeps

@[simp]
theorem Operand.slot?_ofTemp (k : Nat) :
  (Operand.ofTemp k).slot? = some (.temp k)
  := rfl

@[simp]
theorem Operand.slot?_var (name : Text) :
  (Operand.var name).slot? = some (.var name)
  := rfl

theorem Operand.value?_ofTemp_update (store : Store) (k : Nat) (v : Value) :
  (Operand.ofTemp k).value? (Function.update store (.temp k) (some v)) = some v
  := Function.update_self _ _ _

/-- The operands of computed expressions keep their values while later temporaries are written. -/
theorem Computes.value?_eq {k k' : Nat} {es : List Expr} {xs : List Operand} {c : Program}
    (h : Computes k es xs c k') {store store' : Store} (hkeep : store.Keeps k' store') :
  xs.map (·.value? store') = xs.map (·.value? store)
  := by
  induction h with
  | nil | literal => rfl
  | ident => simp [Operand.value?, Operand.var, Operand.slot?, hkeep.1]
  | cons h h' ih ih' =>
      have htail := ih' hkeep
      have hhead := ih ⟨hkeep.1, fun j hj => hkeep.2 j (by have := h'.le; omega)⟩
      simp only [List.map_cons, List.map_nil, List.cons.injEq, and_true] at hhead ⊢
      use hhead
  | group _ ih => apply ih hkeep
  | binary | unary | call =>
      simp [Operand.value?, Operand.ofTemp, Operand.slot?, hkeep.2 _ (Nat.lt_succ_self _)]

/-- The machine's state agrees with the state of a run outside of calls: the variables have the same
values, and the same text was printed. -/
structure CodeState.Agrees (m : CodeState) (r : RunState) : Prop where
  vars : ∀ name, m.store (.var name) = r.globals.get? name
  output : m.output = r.output
  frames : r.frames = []

/-- Agreement is about variables only, not about temporaries and the place. -/
theorem CodeState.Agrees.of_keeps {m : CodeState} {r : RunState} (h : m.Agrees r) {k : Nat}
    {store : Store} (hkeep : m.store.Keeps k store) (place : Nat) :
  CodeState.Agrees { m with place, store } r
  := by
  refine ⟨?_, h.output, h.frames⟩
  intro name
  apply (hkeep.1 name).trans (h.vars name)

section Evaluation

open Fallible

variable {limits : RunLimits} {deeper : Deeper} {r r' : RunState}

theorem Expr.evalAll_cons_ok {e : Expr} {es : List Expr} {vs : List Value} :
  (evalAll limits deeper (e :: es)).run r = (.ok vs, r')
    ↔ ∃ v r₁, (e.eval limits deeper).run r = (.ok v, r₁)
      ∧ ∃ vs', (evalAll limits deeper es).run r₁ = (.ok vs', r') ∧ v :: vs' = vs
  := by
  rw [evalAll]
  simp only [run_bind_ok, run_pure_ok]
  constructor
  · rintro ⟨v, r₁, hv, vs', _, hvs, hcons, rfl⟩
    use v, r₁, hv, vs', hvs
  · rintro ⟨v, r₁, hv, vs', hvs, hcons⟩
    use v, r₁, hv, vs', r', hvs, hcons

theorem Expr.evalAll_singleton_ok {e : Expr} {vs : List Value} :
  (evalAll limits deeper [e]).run r = (.ok vs, r')
    ↔ ∃ v, (e.eval limits deeper).run r = (.ok v, r') ∧ [v] = vs
  := by
  rw [evalAll_cons_ok]
  simp only [evalAll, run_pure_ok]
  constructor
  · rintro ⟨v, r₁, hv, _, ⟨rfl, rfl⟩, hvs⟩
    use v, hv, hvs
  · rintro ⟨v, hv, hvs⟩
    use v, r', hv, [], ⟨rfl, rfl⟩, hvs

/-- Executing the code of expressions that evaluate to `vs` leads to its end, with the values `vs`
in the operands and nothing else changed but later temporaries.  The evaluation changes nothing. -/
theorem Computes.reaches {p : Program} {k k' : Nat} {es : List Expr} {xs : List Operand}
    {c : Program} (h : Computes k es xs c k') (hplain : ∀ e ∈ es, e.isPlain) {vs : List Value}
    (heval : (Expr.evalAll limits deeper es).run r = (.ok vs, r')) {m : CodeState}
    (hm : m.Agrees r) (hc : p.HoldsAt m.place c) :
  r' = r ∧ ∃ store, p.Reaches m { m with place := m.place + c.length, store }
    ∧ m.store.Keeps k store ∧ xs.map (·.value? store) = vs.map some
  := by
  induction h generalizing r r' vs m with
  | nil =>
      rw [Expr.evalAll] at heval
      obtain ⟨rfl, rfl⟩ := run_pure_ok.1 heval
      use rfl, m.store, Relation.ReflTransGen.refl, Store.Keeps.refl _ _
      rfl
  | cons h h' ih ih' =>
      obtain ⟨v, r₁, hv, vs', hvs, rfl⟩ := Expr.evalAll_cons_ok.1 heval
      have hv : (Expr.evalAll limits deeper [_]).run r = (.ok [v], r₁) :=
        Expr.evalAll_singleton_ok.2 ⟨v, hv, rfl⟩
      obtain ⟨rfl, store, hreach, hkeep, hx⟩ := ih (by simp [hplain]) hv hm hc.append.1
      obtain ⟨rfl, store', hreach', hkeep', hxs⟩ :=
        ih' (fun e he => hplain e (List.mem_cons_of_mem _ he)) hvs (hm.of_keeps hkeep _) hc.append.2
      use rfl, store'
      refine ⟨?_, hkeep.trans hkeep' h.le, ?_⟩
      · rw [List.length_append, ← Nat.add_assoc]
        apply hreach.trans hreach'
      · have hx' := h.value?_eq hkeep'
        simp only [List.map_cons, List.map_nil, List.cons.injEq, and_true] at hx hx' ⊢
        use hx'.trans hx
  | literal =>
      obtain ⟨v, hv, rfl⟩ := Expr.evalAll_singleton_ok.1 heval
      rw [Expr.eval] at hv
      obtain ⟨rfl, hvalue⟩ := literalValue_ok {} hv
      use rfl, m.store, Relation.ReflTransGen.refl, Store.Keeps.refl _ _
      simp [Operand.value?, Operand.literal, hvalue]
  | @ident k span name =>
      obtain ⟨v, hv, rfl⟩ := Expr.evalAll_singleton_ok.1 heval
      rw [Expr.eval, run_bind_ok] at hv
      obtain ⟨_, _, hget, hv⟩ := hv
      obtain ⟨rfl, rfl⟩ := run_get_ok.1 hget
      rw [RunState.lookup, hm.frames, ← hm.vars] at hv
      dsimp only at hv
      split at hv
      · rename_i hname
        obtain ⟨rfl, rfl⟩ := run_pure_ok.1 hv
        use rfl, m.store, Relation.ReflTransGen.refl, Store.Keeps.refl _ _
        simp [Operand.value?, Operand.var, Operand.slot?, hname]
      · cases Run.fail_ok hv
  | group _ ih =>
      obtain ⟨v, hv, rfl⟩ := Expr.evalAll_singleton_ok.1 heval
      rw [Expr.eval] at hv
      apply ih _ (Expr.evalAll_singleton_ok.2 ⟨v, hv, rfl⟩) hm hc
      simpa [Expr.isPlain] using hplain
  | @binary k k' span op left right x y c _ h ih =>
      obtain ⟨v, hv, rfl⟩ := Expr.evalAll_singleton_ok.1 heval
      simp only [List.mem_singleton, forall_eq, Expr.isPlain, Bool.and_eq_true, bne_iff_ne] at hplain
      obtain ⟨⟨⟨hand, hor⟩, hleft⟩, hright⟩ := hplain
      rw [Expr.eval.eq_7 _ _ _ _ _ _ hand hor] at hv
      simp only [run_bind_ok] at hv
      obtain ⟨a, r₁, ha, b, r₂, hb, hv⟩ := hv
      have hargs : (Expr.evalAll limits deeper [left, right]).run r = (.ok [a, b], r₂) :=
        Expr.evalAll_cons_ok.2 ⟨a, r₁, ha, [b], Expr.evalAll_singleton_ok.2 ⟨b, hb, rfl⟩, rfl⟩
      obtain ⟨rfl, store, hreach, hkeep, hxs⟩ :=
        ih (by simp [hleft, hright]) hargs hm hc.append.1
      obtain ⟨rfl, hvalue⟩ := binaryValue_ok {} hv
      simp only [List.map_cons, List.map_nil, List.cons.injEq, and_true] at hxs
      have hstep := Program.step?_binary (m := { m with place := m.place + c.length, store })
        hc.append.2.cons.1 (Operand.slot?_ofTemp k') hxs.1 hxs.2 hvalue
      use rfl, Function.update store (.temp k') (some v)
      refine ⟨?_, hkeep.trans (.update (Nat.le_refl _) _ _) h.le, ?_⟩
      · rw [List.length_append, ← Nat.add_assoc]
        apply hreach.tail hstep
      · simp [Operand.value?_ofTemp_update]
  | @unary k k' span op e x c _ h ih =>
      obtain ⟨v, hv, rfl⟩ := Expr.evalAll_singleton_ok.1 heval
      simp only [List.mem_singleton, forall_eq, Expr.isPlain] at hplain
      rw [Expr.eval] at hv
      simp only [run_bind_ok] at hv
      obtain ⟨a, r₁, ha, hv⟩ := hv
      obtain ⟨rfl, store, hreach, hkeep, hxs⟩ :=
        ih (by simp [hplain]) (Expr.evalAll_singleton_ok.2 ⟨a, ha, rfl⟩) hm hc.append.1
      obtain ⟨rfl, hvalue⟩ := unaryValue_ok {} hv
      simp only [List.map_cons, List.map_nil, List.cons.injEq, and_true] at hxs
      have hstep := Program.step?_unary (m := { m with place := m.place + c.length, store })
        hc.append.2.cons.1 (Operand.slot?_ofTemp k') hxs hvalue
      use rfl, Function.update store (.temp k') (some v)
      refine ⟨?_, hkeep.trans (.update (Nat.le_refl _) _ _) h.le, ?_⟩
      · rw [List.length_append, ← Nat.add_assoc]
        apply hreach.tail hstep
      · simp [Operand.value?_ofTemp_update]
  | call => simp [Expr.isPlain] at hplain

/-- Executing the code of an expression that evaluates to `v` leads to its end, with the value `v`
in the operand, in a state that agrees with the run as before. -/
theorem Computes.reaches_value {p : Program} {k k' : Nat} {e : Expr} {x : Operand} {c : Program}
    (h : Computes k [e] [x] c k') (hplain : e.isPlain) {v : Value}
    (heval : (e.eval limits deeper).run r = (.ok v, r')) {m : CodeState} (hm : m.Agrees r)
    (hc : p.HoldsAt m.place c) :
  ∃ m', p.Reaches m m' ∧ m'.place = m.place + c.length ∧ m'.Agrees r' ∧ x.value? m'.store = some v
  := by
  obtain ⟨rfl, store, hreach, hkeep, hx⟩ :=
    h.reaches (by simp [hplain]) (Expr.evalAll_singleton_ok.2 ⟨v, heval, rfl⟩) hm hc
  simp only [List.map_cons, List.map_nil, List.cons.injEq, and_true] at hx
  use { m with place := m.place + c.length, store }, hreach, rfl, hm.of_keeps hkeep _, hx

end Evaluation

/-! ### Statements -/

/-- The machine goes from the state `m` to a state at `place` that agrees with `r`. -/
def Program.Leads (p : Program) (m : CodeState) (place : Nat) (r : RunState) : Prop :=
  ∃ m', p.Reaches m m' ∧ m'.place = place ∧ m'.Agrees r

namespace Program.Leads

variable {p : Program} {m m' : CodeState} {place : Nat} {r : RunState}

theorem step (hstep : p.step? m = some m') (h : p.Leads m' place r) :
  p.Leads m place r
  := by
  obtain ⟨m₁, hreach, h⟩ := h
  use m₁, hreach.head hstep

theorem reaches (hreach : p.Reaches m m') (h : p.Leads m' place r) :
  p.Leads m place r
  := by
  obtain ⟨m₁, hreach', h⟩ := h
  use m₁, hreach.trans hreach'

theorem here (h : m.Agrees r) (hplace : m.place = place) :
  p.Leads m place r
  := ⟨m, Relation.ReflTransGen.refl, hplace, h⟩

end Program.Leads

section Statements

open Fallible

variable {limits : RunLimits} {deeper : Deeper} {r r' : RunState} {m : CodeState} {sig : Signal}

/-- Counting a step changes the counts only. -/
theorem Run.tick_ok {span : Span} {u : Unit} (h : (tick limits span).run r = (.ok u, r')) :
  ∃ stats, { r with stats } = r'
  := by
  rw [tick, count] at h
  simp only [run_bind_ok, run_modify_ok, run_get_ok] at h
  obtain ⟨_, _, rfl, _, _, ⟨rfl, rfl⟩, h⟩ := h
  use { r.stats with steps := r.stats.steps + 1 }
  split at h
  · rw [run_bind_ok] at h
    obtain ⟨_, _, hfail, -⟩ := h
    cases fail_ok hfail
  · split at h
    · cases fail_ok h
    · apply (run_pure_ok.1 h).2

theorem CodeState.Agrees.of_place (h : m.Agrees r) (place : Nat) :
  CodeState.Agrees { m with place } r
  := ⟨h.vars, h.output, h.frames⟩

theorem CodeState.Agrees.stats (h : m.Agrees r) (stats : RunStats) :
  m.Agrees { r with stats }
  := ⟨h.vars, h.output, h.frames⟩

theorem Stmt.execAll_cons_ok {s : Stmt} {ss : List Stmt}
    (h : (execAll limits deeper (s :: ss)).run r = (.ok sig, r')) :
  ∃ sig₁ r₁, (s.exec limits deeper).run r = (.ok sig₁, r₁)
    ∧ (sig₁ = .next → (execAll limits deeper ss).run r₁ = (.ok sig, r'))
  := by
  rw [execAll, run_bind_ok] at h
  obtain ⟨sig₁, r₁, hs, h⟩ := h
  use sig₁, r₁, hs
  rintro rfl
  apply h

theorem Stmt.execAll_singleton_ok {s : Stmt} :
  (execAll limits deeper [s]).run r = (.ok sig, r')
    ↔ (s.exec limits deeper).run r = (.ok sig, r')
  := by
  rw [execAll, run_bind_ok]
  constructor
  · rintro ⟨sig₁, r₁, hs, h⟩
    cases sig₁ with
    | next =>
        rw [execAll] at h
        obtain ⟨rfl, rfl⟩ := run_pure_ok.1 h
        apply hs
    | returned v =>
        obtain ⟨rfl, rfl⟩ := run_pure_ok.1 h
        apply hs
  · intro h
    use sig, r', h
    cases sig with
    | next => rfl
    | returned v => rfl

/-- A loop is carried out by code that tests the condition at its start, leaves if it fails, and
jumps back after the body.  The induction is on the rounds that are left. -/
theorem runLoop_leads {p : Program} {span : Span} {test : Run Value} {body : Run Signal}
    {start stop : Text} {n a b : Nat} {x : Operand}
    (hstart : p[n]? = some { kind := .label, label := start })
    (htest : ∀ {r r' v m}, test.run r = (.ok v, r') → m.Agrees r → m.place = n + 1 →
      ∃ m', p.Reaches m m' ∧ m'.place = a ∧ m'.Agrees r' ∧ x.value? m'.store = some v)
    (hbranch : p[a]? = some { kind := .jumpIfFalse, cond := x, label := stop })
    (hbody : ∀ {r r' sig m}, body.run r = (.ok sig, r') → m.Agrees r → m.place = a + 1 →
      sig = .next ∧ p.Leads m b r')
    (hback : p[b]? = some { kind := .jump, label := start })
    (hstop : p[b + 1]? = some { kind := .label, label := stop })
    (hstartIndex : p.labelIndex? start = some n) (hstopIndex : p.labelIndex? stop = some (b + 1))
    {rounds : Nat} (hrun : (runLoop limits span test body rounds).run r = (.ok sig, r'))
    (hm : m.Agrees r) (hplace : m.place = n) {place : Nat} (hend : b + 2 = place) :
  sig = .next ∧ p.Leads m place r'
  := by
  induction rounds generalizing r m with
  | zero => cases Run.fail_ok hrun
  | succ rounds ih =>
      rw [runLoop, run_bind_ok] at hrun
      obtain ⟨v, r₁, hv, hrun⟩ := hrun
      obtain ⟨m₁, hreach, hplace₁, hm₁, hx⟩ :=
        htest hv (hm.of_place m.next.place) (congrArg (· + 1) hplace)
      rw [← hplace] at hstart
      rw [← hplace₁] at hbranch
      split at hrun
      · rename_i htrue
        rw [run_bind_ok] at hrun
        obtain ⟨sig₁, r₂, hbodyRun, hrun⟩ := hrun
        obtain ⟨rfl, m₂, hreach₂, hplace₂, hm₂⟩ :=
          hbody hbodyRun (hm₁.of_place m₁.next.place) (congrArg (· + 1) hplace₁)
        rw [← hplace₂] at hback
        simp only [run_bind_ok] at hrun
        obtain ⟨_, r₃, htick, hrun⟩ := hrun
        obtain ⟨stats, rfl⟩ := Run.tick_ok htick
        obtain ⟨hsig, hleads⟩ := ih hrun ((hm₂.of_place n).stats stats) rfl
        use hsig
        apply Program.Leads.step (Program.step?_label hstart)
        apply Program.Leads.reaches hreach
        apply Program.Leads.step (Program.step?_jumpIfFalse_of_truthy hbranch hx htrue)
        apply Program.Leads.reaches hreach₂
        apply Program.Leads.step (Program.step?_jump hback hstartIndex)
        apply hleads
      · rename_i hfalse
        obtain ⟨rfl, rfl⟩ := run_pure_ok.1 hrun
        use rfl
        apply Program.Leads.step (Program.step?_label hstart)
        apply Program.Leads.reaches hreach
        apply Program.Leads.step
          (Program.step?_jumpIfFalse_of_not_truthy hbranch hx hfalse hstopIndex)
        apply Program.Leads.step (Program.step?_label hstop)
        apply Program.Leads.here (hm₁.of_place _) hend

/-- Writing a variable on both sides keeps the agreement. -/
theorem CodeState.Agrees.write (h : m.Agrees r) (place : Nat) (name : Text) (v : Value) :
  CodeState.Agrees { m with place, store := Function.update m.store (.var name) (some v) }
    { r with globals := r.globals.insert name v }
  := by
  refine ⟨?_, h.output, h.frames⟩
  intro name'
  dsimp only
  by_cases hname : name = name'
  · rw [hname, Function.update_self, Dict.get?_insert_self]
  · rw [Dict.get?_insert_of_ne _ _ hname, Function.update_of_ne, h.vars]
    simp only [ne_eq, Slot.var.injEq]
    apply Ne.symm hname

/-- Printing the same value on both sides keeps the agreement. -/
theorem CodeState.Agrees.print (h : m.Agrees r) (v : Value) :
  (m.print v).Agrees { r with printed := r.printed.push (v.shown ++ [10]) }
  := by
  refine ⟨h.vars, ?_, h.frames⟩
  rw [CodeState.print, RunState.output, h.output, RunState.output]
  simp

/-- Outside of calls a variable that is assigned is a global one. -/
theorem RunState.assign_eq_some (h : r.frames = []) {name : Text} {v : Value}
    (hassign : r.assign name v = some r') :
  { r with globals := r.globals.insert name v } = r'
  := by
  rw [RunState.assign, RunState.bindsLocally, h] at hassign
  simp only [Bool.false_eq_true, if_false, Option.ite_none_right_eq_some, Option.some.injEq]
    at hassign
  rw [← hassign.2, h]

/-- Outside of calls a variable that is declared is a global one. -/
theorem RunState.define_eq (h : r.frames = []) (name : Text) (v : Value) :
  r.define name v = { r with globals := r.globals.insert name v }
  := by
  rw [RunState.define, h]

/-- A statement that does one thing with the value of an expression is carried out by the code of
the expression and one instruction more. -/
theorem Computes.leads_of_step {p : Program} {k k' : Nat} {e : Expr} {x : Operand} {c : Program}
    (h : Computes k [e] [x] c k') (hplain : e.isPlain) {v : Value} {r₁ : RunState}
    (heval : (e.eval limits deeper).run r = (.ok v, r₁)) (hm : m.Agrees r) {i : Instr}
    (hc : p.HoldsAt m.place (c ++ [i]))
    (hstep : ∀ {m₁}, m₁.Agrees r₁ → p[m₁.place]? = some i → x.value? m₁.store = some v →
      ∃ m₂, p.step? m₁ = some m₂ ∧ m₂.place = m₁.place + 1 ∧ m₂.Agrees r') :
  p.Leads m (m.place + (c ++ [i]).length) r'
  := by
  obtain ⟨m₁, hreach, hplace, hm₁, hx⟩ := h.reaches_value hplain heval hm hc.append.1
  have hi := hc.append.2.cons.1
  rw [← hplace] at hi
  obtain ⟨m₂, hstep, hplace₂, hm₂⟩ := hstep hm₁ hi hx
  apply Program.Leads.reaches hreach
  apply Program.Leads.step hstep
  apply Program.Leads.here hm₂
  rw [hplace₂, hplace, List.length_append, List.length_singleton, Nat.add_assoc]

/-- Executing the code of statements that run without a fault leads to its end, in a state that
agrees with the run again. -/
theorem Performs.leads {p : Program} (hp : p.labelNames.Nodup) {k l k' l' : Nat} {ss : List Stmt}
    {c : Program} (h : Performs k l ss c k' l') (hplain : Stmt.arePlain ss)
    (hrun : (Stmt.execAll limits deeper ss).run r = (.ok sig, r')) (hm : m.Agrees r)
    (hc : p.HoldsAt m.place c) :
  sig = .next ∧ p.Leads m (m.place + c.length) r'
  := by
  induction h generalizing r r' m sig with
  | nil =>
      rw [Stmt.execAll] at hrun
      obtain ⟨rfl, rfl⟩ := run_pure_ok.1 hrun
      use rfl
      apply Program.Leads.here hm rfl
  | @cons k l k₁ l₁ k' l' s ss c c' h h' ih ih' =>
      simp only [Stmt.arePlain, Bool.and_eq_true] at hplain
      obtain ⟨sig₁, r₁, hs, hrun⟩ := Stmt.execAll_cons_ok hrun
      obtain ⟨rfl, m₁, hreach, hplace, hm₁⟩ :=
        ih (by simp [Stmt.arePlain, hplain.1]) (Stmt.execAll_singleton_ok.2 hs) hm hc.append.1
      obtain ⟨hsig, hleads⟩ := ih' hplain.2 (hrun rfl) hm₁ (hplace ▸ hc.append.2)
      use hsig
      rw [List.length_append, ← Nat.add_assoc, ← hplace]
      apply Program.Leads.reaches hreach hleads
  | letVar h =>
      simp only [Stmt.arePlain, Stmt.isPlain, Bool.and_true] at hplain
      rw [Stmt.execAll_singleton_ok, Stmt.exec] at hrun
      simp only [run_bind_ok, run_modify_ok, run_pure_ok] at hrun
      obtain ⟨_, _, htick, v, r₁, hv, _, _, rfl, rfl, rfl⟩ := hrun
      obtain ⟨stats, rfl⟩ := Run.tick_ok htick
      use rfl
      apply h.leads_of_step hplain hv (hm.stats stats) hc
      intro m₁ hm₁ hi hx
      refine ⟨_, Program.step?_assign hi (Operand.slot?_var _) hx, rfl, ?_⟩
      rw [RunState.define_eq hm₁.frames]
      apply hm₁.write
  | assign h =>
      simp only [Stmt.arePlain, Stmt.isPlain, Bool.and_true] at hplain
      rw [Stmt.execAll_singleton_ok, Stmt.exec] at hrun
      simp only [run_bind_ok, run_get_ok] at hrun
      obtain ⟨_, _, htick, v, r₁, hv, _, _, ⟨rfl, rfl⟩, hrun⟩ := hrun
      obtain ⟨stats, rfl⟩ := Run.tick_ok htick
      split at hrun
      · rename_i r₂ hassign
        simp only [run_bind_ok, run_set_ok, run_pure_ok] at hrun
        obtain ⟨_, _, rfl, rfl, rfl⟩ := hrun
        use rfl
        apply h.leads_of_step hplain hv (hm.stats stats) hc
        intro m₁ hm₁ hi hx
        refine ⟨_, Program.step?_assign hi (Operand.slot?_var _) hx, rfl, ?_⟩
        rw [← RunState.assign_eq_some hm₁.frames hassign]
        apply hm₁.write
      · cases Run.fail_ok hrun
  | print h =>
      simp only [Stmt.arePlain, Stmt.isPlain, Bool.and_true] at hplain
      rw [Stmt.execAll_singleton_ok, Stmt.exec] at hrun
      simp only [run_bind_ok, Run.printLine, run_modify_ok, run_pure_ok] at hrun
      obtain ⟨_, _, htick, v, r₁, hv, _, _, rfl, rfl, rfl⟩ := hrun
      obtain ⟨stats, rfl⟩ := Run.tick_ok htick
      use rfl
      apply h.leads_of_step hplain hv (hm.stats stats) hc
      intro m₁ hm₁ hi hx
      use m₁.print v, Program.step?_print hi hx, rfl
      apply hm₁.print
  | expr h =>
      simp only [Stmt.arePlain, Stmt.isPlain, Bool.and_true] at hplain
      rw [Stmt.execAll_singleton_ok, Stmt.exec] at hrun
      simp only [run_bind_ok, run_pure_ok] at hrun
      obtain ⟨_, _, htick, v, r₁, hv, rfl, rfl⟩ := hrun
      obtain ⟨stats, rfl⟩ := Run.tick_ok htick
      obtain ⟨m₁, hreach, hplace, hm₁, -⟩ := h.reaches_value hplain hv (hm.stats stats) hc
      use rfl
      apply Program.Leads.reaches hreach
      apply Program.Leads.here hm₁ hplace
  | @ifElse k l k₁ k₂ l₂ k' l' span cond x thenBody elseBody hasElse c c₁ c₂ h h₁ h₂ ih₁ ih₂ =>
      simp only [Stmt.arePlain, Stmt.isPlain, Bool.and_true, Bool.and_eq_true] at hplain
      rw [Stmt.execAll_singleton_ok, Stmt.exec] at hrun
      simp only [run_bind_ok] at hrun
      obtain ⟨_, _, htick, v, r₁, hv, hrun⟩ := hrun
      obtain ⟨stats, rfl⟩ := Run.tick_ok htick
      obtain ⟨m₁, hreach, hplace, hm₁, hx⟩ :=
        h.reaches_value hplain.1.1 hv (hm.stats stats) hc.append.1
      obtain ⟨hbranch, hrest⟩ := hc.append.2.cons
      rw [← hplace] at hbranch hrest
      obtain ⟨hjump, helse⟩ := hrest.append.2.cons
      obtain ⟨helseAt, hlast⟩ := helse.cons
      have helseIndex := Program.labelIndex?_of_labelAt hp helse.labelAt
      have hendIndex := Program.labelIndex?_of_labelAt hp hlast.append.2.labelAt
      have hendAt := hlast.append.2.cons.1
      split at hrun
      · rename_i htrue
        obtain ⟨hsig, m₂, hreach₂, hplace₂, hm₂⟩ :=
          ih₁ hplain.1.2 hrun (hm₁.of_place m₁.next.place) hrest.append.1
        change m₂.place = m₁.place + 1 + c₁.length at hplace₂
        rw [← hplace₂] at hjump
        use hsig
        apply Program.Leads.reaches hreach
        apply Program.Leads.step (Program.step?_jumpIfFalse_of_truthy hbranch hx htrue)
        apply Program.Leads.reaches hreach₂
        apply Program.Leads.step (Program.step?_jump hjump hendIndex)
        apply Program.Leads.step (Program.step?_label hendAt)
        apply Program.Leads.here (hm₂.of_place _)
        simp only [List.length_append, List.length_cons, List.length_nil]
        omega
      · rename_i hfalse
        have hrun : (Stmt.execAll limits deeper (if hasElse then elseBody else [])).run r₁
            = (.ok sig, r') := by
          cases hasElse with
          | true => apply hrun
          | false => apply hrun
        have hplain : Stmt.arePlain (if hasElse then elseBody else []) := by
          cases hasElse with
          | true => apply hplain.2
          | false => rfl
        obtain ⟨hsig, m₂, hreach₂, hplace₂, hm₂⟩ := ih₂ hplain hrun (hm₁.of_place _) hlast.append.1
        change m₂.place = m₁.place + 1 + c₁.length + 1 + 1 + c₂.length at hplace₂
        rw [← hplace₂] at hendAt
        use hsig
        apply Program.Leads.reaches hreach
        apply Program.Leads.step
          (Program.step?_jumpIfFalse_of_not_truthy hbranch hx hfalse helseIndex)
        apply Program.Leads.step (Program.step?_label helseAt)
        apply Program.Leads.reaches hreach₂
        apply Program.Leads.step (Program.step?_label hendAt)
        apply Program.Leads.here (hm₂.of_place _)
        simp only [List.length_append, List.length_cons, List.length_nil]
        omega
  | @«while» k l k₁ k' l' span cond x body c c₁ h h₁ ih =>
      simp only [Stmt.arePlain, Stmt.isPlain, Bool.and_true, Bool.and_eq_true] at hplain
      rw [Stmt.execAll_singleton_ok, Stmt.exec] at hrun
      simp only [run_bind_ok, run_get_ok] at hrun
      obtain ⟨_, _, htick, _, _, ⟨rfl, rfl⟩, hrun⟩ := hrun
      obtain ⟨stats, rfl⟩ := Run.tick_ok htick
      obtain ⟨hstart, htest⟩ := hc.cons
      obtain ⟨hbranch, hbody⟩ := htest.append.2.cons
      obtain ⟨hback, hstop⟩ := hbody.append.2.cons
      apply runLoop_leads hstart _ hbranch _ hback hstop.cons.1
        (Program.labelIndex?_of_labelAt hp hc.labelAt)
        (Program.labelIndex?_of_labelAt hp hstop.labelAt) hrun (hm.stats stats) rfl
        (by simp only [List.length_append, List.length_cons, List.length_nil]; omega)
      · intro r r' v m' hv hm' hplace
        rw [← hplace] at htest ⊢
        apply h.reaches_value hplain.1 hv hm' htest.append.1
      · intro r r' sig m' hrun hm' hplace
        rw [← hplace] at hbody ⊢
        apply ih hplain.2 hrun hm' hbody.append.1
  | function | ret | retValue => simp [Stmt.arePlain, Stmt.isPlain] at hplain

end Statements

/-! ### Programs -/

/-- The state in which the run of a program ends. -/
def finalState (limits : RunLimits) (program : List Stmt) : RunState :=
  ((runBody limits limits.depth program).run {}).2

/-- Outside of calls it does not matter how deep calls may nest. -/
theorem runBody_eq (limits : RunLimits) (levels : Nat) (body : List Stmt) :
  ∃ deeper, runBody limits levels body = Stmt.execAll limits deeper body
  := by
  cases levels with
  | zero =>
      use none
      rfl
  | succ levels =>
      use some (runBody limits levels)
      rfl

/-- A run without a fault ends with a signal in the final state. -/
theorem run_eq_of_fault_eq_none {limits : RunLimits} {program : List Stmt}
    (h : (runProgram limits program).fault = none) :
  ∃ sig, (runBody limits limits.depth program).run {} = (.ok sig, finalState limits program)
  := by
  rw [runProgram] at h
  rw [finalState]
  rcases hrun : (runBody limits limits.depth program).run {} with ⟨e | sig, r⟩
  · rw [hrun] at h
    cases h
  · use sig

/-- Executing the code that is generated of a plain program ends at the end of the code, with the
output and the values of the variables that running the program gives. -/
theorem generated_code_runs_like_program {limits : RunLimits} {program : List Stmt}
    {table table' : SymbolTable} {code : Program} (hplain : Stmt.arePlain program)
    (hcode : generate program table = (.ok code, table'))
    (hrun : (runProgram limits program).fault = none) :
  ∃ m, code.Reaches {} m ∧ m.place = code.length
    ∧ m.output = (runProgram limits program).output
    ∧ ∀ name, m.store (.var name) = (finalState limits program).globals.get? name
  := by
  obtain ⟨k, l, h⟩ := performs_of_generate hcode
  obtain ⟨sig, hrun⟩ := run_eq_of_fault_eq_none hrun
  obtain ⟨deeper, hbody⟩ := runBody_eq limits limits.depth program
  rw [hbody] at hrun
  have hstart : CodeState.Agrees {} {} := ⟨fun _ => rfl, rfl, rfl⟩
  obtain ⟨-, m, hreach, hplace, hm⟩ :=
    h.leads h.labelNames_nodup hplain hrun hstart code.holdsAt_self
  refine ⟨m, hreach, ?_, hm.output, hm.vars⟩
  rw [hplace]
  apply Nat.zero_add

/-- A text grows by a letter in every round, and what is printed depends on it. -/
def growingText : List Stmt :=
  [.letVar {} "s" {} (.literal {} .string "a"),
    .while {} (.binary {} .ne (.ident {} "s") (.literal {} .string "aaa"))
      [.ifElse {} (.binary {} .eq (.ident {} "s") (.literal {} .string "aa"))
        [.print {} (.ident {} "s")] [.print {} (.literal {} .boolean "true")] true,
       .assign {} "s" {} (.binary {} .add (.ident {} "s") (.literal {} .string "a"))]]

theorem generated_code_runs_like_growingText :
  Stmt.arePlain growingText ∧ (runProgram { steps := 20 } growingText).fault = none
    ∧ ∃ code table, generate growingText {} = (.ok code, table)
      ∧ ∃ m, code.Reaches {} m ∧ m.place = code.length ∧ m.output = "true\naa\n"
  := by
  have hplain : Stmt.arePlain growingText := by decide
  have hrun : (runProgram { steps := 20 } growingText).fault = none := by rfl
  have hcode : (generate growingText {}).1.isOk := by decide +kernel
  use hplain, hrun
  rcases h : generate growingText {} with ⟨_ | code, table⟩
  · rw [h] at hcode
    cases hcode
  · obtain ⟨m, hreach, hplace, houtput, -⟩ := generated_code_runs_like_program hplain h hrun
    use code, table, rfl, m, hreach, hplace
    rw [houtput]
    decide

end ThreeAddress
