import ThreeAddress.Proofs.Run.Following

/-!
# Calls are isolated from one another

`RunState.SameBut n` says that the same calls are under way in two states, and that all but the `n`
innermost ones have the same local variables.  With a value or with a fault, evaluating an
expression leaves all calls as they are, and running a statement all but the innermost one: what the
body of a function does to its own variables is gone when its call is left.

A fault lists the calls under way.  Where it was raised can be seen from the steps of the run, since
the steps leave no call after a fault: it is the state before the last step.
-/

namespace ThreeAddress

open RunPoint

variable {α β : Type} {limits : RunLimits} {n : Nat}

/-! ### States with the same calls -/

namespace RunState

/-- The same calls are under way, and all but the `n` innermost ones have the same variables. -/
structure SameBut (n : Nat) (s s' : RunState) : Prop where
  sites : s'.frames.map (·.site) = s.frames.map (·.site)
  outer : s'.frames.drop n = s.frames.drop n

variable {s s' s'' : RunState}

theorem SameBut.of_frames (h : s'.frames = s.frames) :
  s.SameBut n s'
  := by
  constructor
  · rw [h]
  · rw [h]

theorem SameBut.refl (s : RunState) :
  s.SameBut n s
  := .of_frames rfl

theorem SameBut.trans (h : s.SameBut n s') (h' : s'.SameBut n s'') :
  s.SameBut n s''
  := ⟨h'.sites.trans h.sites, h'.outer.trans h.outer⟩

theorem SameBut.frames_eq (h : s.SameBut 0 s') :
  s'.frames = s.frames
  := h.outer

/-- When a call is left, nothing is left of what was done to its variables. -/
theorem SameBut.leave {frame : CallFrame} (h : (s.enter frame).SameBut 1 s') :
  s.SameBut n s'.leave
  := by
  apply SameBut.of_frames
  change s'.frames.tail = s.frames
  rw [← List.drop_one]
  exact h.outer

theorem sameBut_define (s : RunState) (name : Text) (v : Value) :
  s.SameBut 1 (s.define name v)
  := by
  rw [define]
  split
  · exact .of_frames rfl
  · next f rest hframes =>
    constructor
    · rw [hframes]
      rfl
    · rw [hframes]
      rfl

theorem sameBut_assign {name : Text} {v : Value} (h : s.assign name v = some s') :
  s.SameBut 1 s'
  := by
  rw [assign] at h
  split at h
  · cases h
    exact s.sameBut_define name v
  · split at h
    · cases h
      exact .of_frames rfl
    · cases h

end RunState

/-! ### Computations that keep the calls -/

/-- With a value or with a fault, the computation leaves all calls under way and the variables of
all but the `n` innermost ones.  A fault lists these calls, after those entered meanwhile. -/
def Run.Keeps (n : Nat) (x : Run α) : Prop :=
  ∀ s, s.SameBut n (x.run s).2
    ∧ ∀ f, (x.run s).1 = .error f → s.frames.map (·.site) <:+ f.backtrace

namespace Run.Keeps

open Fallible

variable {x : Run α} {f : α → Run β}

theorem of_answers (h : ∀ s, Answers x s) :
  Keeps n x
  := by
  intro s
  obtain ⟨a, ha⟩ | ⟨f, hf, -, htraces⟩ := h s
  · rw [ha]
    exact ⟨.refl s, fun _ h => nomatch h⟩
  · rw [hf]
    refine ⟨.refl s, ?_⟩
    rintro f' ⟨⟩
    exact ⟨[], htraces.symm⟩

theorem pure (a : α) :
  Keeps n (Pure.pure a : Run α)
  := of_answers fun _ => answers_pure a

theorem fail (cause : FaultCause) (span : Span) :
  Keeps n (Run.fail cause span : Run α)
  := by
  intro s
  refine ⟨.refl s, ?_⟩
  rintro f ⟨⟩
  exact List.suffix_refl _

theorem of_modify {g : RunState → RunState} (h : ∀ s : RunState, s.SameBut n (g s)) :
  Keeps n (modify g : Run Unit)
  := fun s => ⟨h s, fun _ h => nomatch h⟩

/-- One computation after another, of which the second one may rely on what the first one gives. -/
theorem bind_of_ok (hx : Keeps n x) (hf : ∀ a s s', x.run s = (.ok a, s') → Keeps n (f a)) :
  Keeps n (x >>= f)
  := by
  intro s
  obtain ⟨hsame, hback⟩ := hx s
  rw [run_bind]
  rcases hrun : x.run s with ⟨e | a, s₁⟩
  · rw [hrun] at hsame hback
    refine ⟨hsame, ?_⟩
    rintro e' ⟨⟩
    exact hback e rfl
  · rw [hrun] at hsame
    obtain ⟨hsame', hback'⟩ := hf a s s₁ hrun s₁
    rw [hsame.sites] at hback'
    exact ⟨hsame.trans hsame', hback'⟩

theorem bind (hx : Keeps n x) (hf : ∀ a, Keeps n (f a)) :
  Keeps n (x >>= f)
  := hx.bind_of_ok fun a _ _ _ => hf a

theorem get_bind {g : RunState → Run α} (h : ∀ s, Keeps n (g s)) :
  Keeps n (get >>= g)
  := fun s => h s s

/-- What keeps the variables of every call keeps those of all but some. -/
theorem of_zero (h : Keeps 0 x) :
  Keeps n x
  := fun s => ⟨.of_frames (h s).1.frames_eq, (h s).2⟩

theorem tick (limits : RunLimits) (span : Span) :
  Keeps n (Run.tick limits span)
  := by
  intro s
  rw [run_tick]
  split_ifs
  · refine ⟨.of_frames rfl, ?_⟩
    rintro f ⟨⟩
    exact List.suffix_refl _
  · refine ⟨.of_frames rfl, ?_⟩
    rintro f ⟨⟩
    exact List.suffix_refl _
  · exact ⟨.of_frames rfl, fun _ h => nomatch h⟩

theorem printLine (t : Text) :
  Keeps n (Run.printLine t)
  := of_modify fun _ => .of_frames rfl

theorem define (name : Text) (v : Value) :
  Keeps 1 (modify (·.define name v) : Run Unit)
  := of_modify fun s => s.sameBut_define name v

/-- Since the frame of a call is left, its variables may change. -/
theorem inFrame (hx : Keeps 1 x) (frame : CallFrame) :
  Keeps n (Run.inFrame frame x)
  := by
  intro s
  rw [run_inFrame]
  obtain ⟨hsame, hback⟩ := hx (s.enter frame)
  refine ⟨hsame.leave, ?_⟩
  intro f hf
  apply List.IsSuffix.trans _ (hback f hf)
  exact List.suffix_cons _ _

theorem callFunction {run : List Stmt → Run Signal} (hrun : ∀ body, Keeps 1 (run body))
    (f : FunctionBody) (site : CallSite) (args : List Value) :
  Keeps n (ThreeAddress.callFunction run f site args)
  := by
  rw [ThreeAddress.callFunction]
  apply (inFrame (hrun f.body) _).bind
  intro signal
  cases signal with
  | next => apply pure
  | returned v => apply pure

theorem runLoop {span : Span} {test : Run Value} {body : Run Signal} (htest : Keeps 0 test)
    (hbody : Keeps 1 body) (rounds : Nat) :
  Keeps 1 (ThreeAddress.runLoop limits span test body rounds)
  := by
  induction rounds with
  | zero => apply fail
  | succ rounds ih =>
      rw [ThreeAddress.runLoop]
      apply htest.of_zero.bind
      intro c
      split
      · apply hbody.bind
        intro signal
        cases signal with
        | returned v => apply pure
        | next => exact (tick limits span).bind fun _ => ih
      · apply pure

end Run.Keeps

/-! ### Expressions and statements -/

/-- What is run one level further down keeps all calls under way there but the innermost one. -/
def Deeper.Keeps (deeper : Deeper) : Prop :=
  ∀ run, deeper = some run → ∀ body, Run.Keeps 1 (run body)

theorem Deeper.keeps_none :
  Deeper.Keeps none
  := by
  rintro run ⟨⟩

theorem Deeper.keeps_some {run : List Stmt → Run Signal} (h : ∀ body, Run.Keeps 1 (run body)) :
  Deeper.Keeps (some run)
  := by
  rintro run' ⟨⟩
  exact h

theorem keeps_findFunction (deeper : Deeper) (span : Span) (name : Text) (nameSpan : Span)
    (args : Nat) :
  Run.Keeps n (findFunction limits deeper span name nameSpan args)
  := by
  apply Run.Keeps.get_bind
  intro s
  split
  · apply Run.Keeps.fail
  · split
    · apply Run.Keeps.fail
    · split
      · apply Run.Keeps.fail
      · apply Run.Keeps.pure

namespace Expr

mutual

/-- Evaluating an expression keeps all calls and their variables. -/
theorem keeps_eval {deeper : Deeper} (hdeeper : deeper.Keeps) (e : Expr) :
  Run.Keeps 0 (e.eval limits deeper)
  := by
  cases e with
  | literal span kind text =>
      exact .of_answers fun _ => Run.answers_literalValue span kind text
  | ident span name =>
      rw [eval]
      apply Run.Keeps.get_bind
      intro s
      split
      · apply Run.Keeps.pure
      · apply Run.Keeps.fail
  | group span inner =>
      rw [eval]
      exact keeps_eval hdeeper inner
  | unary span op operand =>
      rw [eval]
      apply (keeps_eval hdeeper operand).bind
      intro v
      exact .of_answers fun _ => Run.answers_unaryValue span op v
  | binary span op left right =>
      have hleft := keeps_eval hdeeper left
      have hright := keeps_eval hdeeper right
      have htruth : Run.Keeps 0 (do
          let r ← right.eval limits deeper
          return Value.boolean r.truthy) := hright.bind fun r => .pure _
      cases op with
      | and =>
          rw [eval]
          apply hleft.bind
          intro l
          split
          · exact htruth
          · apply Run.Keeps.pure
      | or =>
          rw [eval]
          apply hleft.bind
          intro l
          split
          · apply Run.Keeps.pure
          · exact htruth
      | _ =>
          apply hleft.bind
          intro l
          apply hright.bind
          intro r
          exact .of_answers fun _ => Run.answers_binaryValue span _ l r
  | call span name nameSpan args =>
      rw [eval]
      apply (keeps_findFunction deeper span name nameSpan args.length).bind_of_ok
      rintro ⟨f, run⟩ s s' hfind
      apply (keeps_evalAll hdeeper args).bind
      intro vs
      exact .callFunction (hdeeper run (eq_some_of_findFunction hfind)) f _ vs
  | unknown span code => apply Run.Keeps.fail
  | missing id => apply Run.Keeps.fail

theorem keeps_evalAll {deeper : Deeper} (hdeeper : deeper.Keeps) (es : List Expr) :
  Run.Keeps 0 (evalAll limits deeper es)
  := by
  cases es with
  | nil => apply Run.Keeps.pure
  | cons e es =>
      rw [evalAll]
      apply (keeps_eval hdeeper e).bind
      intro v
      apply (keeps_evalAll hdeeper es).bind
      intro vs
      apply Run.Keeps.pure

end

end Expr

namespace Stmt

mutual

/-- Running a statement keeps all calls, and the variables of all but the innermost one. -/
theorem keeps_exec {deeper : Deeper} (hdeeper : deeper.Keeps) (st : Stmt) :
  Run.Keeps 1 (st.exec limits deeper)
  := by
  have hvalue : ∀ e : Expr, Run.Keeps 1 (e.eval limits deeper) :=
    fun e => (e.keeps_eval hdeeper).of_zero
  cases st with
  | letVar span name nameSpan value =>
      rw [exec]
      apply (Run.Keeps.tick limits span).bind
      intro _
      apply (hvalue value).bind
      intro v
      exact (Run.Keeps.define name v).bind fun _ => .pure _
  | assign span name nameSpan value =>
      rw [exec]
      apply (Run.Keeps.tick limits span).bind
      intro _
      apply (hvalue value).bind
      intro v s
      rw [Fallible.run_get_bind]
      split
      · next s' hassign =>
        refine ⟨RunState.sameBut_assign hassign, ?_⟩
        rintro f ⟨⟩
      · exact Run.Keeps.fail _ _ s
  | ifElse span cond thenBody elseBody hasElse =>
      rw [exec]
      apply (Run.Keeps.tick limits span).bind
      intro _
      apply (hvalue cond).bind
      intro c
      split
      · exact keeps_execAll hdeeper thenBody
      · split
        · exact keeps_execAll hdeeper elseBody
        · apply Run.Keeps.pure
  | «while» span cond body =>
      rw [exec]
      apply (Run.Keeps.tick limits span).bind
      intro _
      apply Run.Keeps.get_bind
      intro s
      exact .runLoop (cond.keeps_eval hdeeper) (keeps_execAll hdeeper body) _
  | function span name nameSpan params body =>
      rw [exec]
      apply (Run.Keeps.tick limits span).bind
      intro _
      refine Run.Keeps.bind ?_ fun _ => .pure _
      exact .of_modify fun _ => .of_frames rfl
  | ret span value =>
      cases value with
      | none =>
          rw [exec]
          apply (Run.Keeps.tick limits span).bind
          intro _
          apply Run.Keeps.get_bind
          intro s
          split
          · apply Run.Keeps.pure
          · apply Run.Keeps.pure
      | some value =>
          rw [exec]
          apply (Run.Keeps.tick limits span).bind
          intro _
          apply (hvalue value).bind
          intro v
          apply Run.Keeps.get_bind
          intro s
          split
          · exact (Run.Keeps.printLine _).bind fun _ => .pure _
          · apply Run.Keeps.pure
  | print span value =>
      rw [exec]
      apply (Run.Keeps.tick limits span).bind
      intro _
      apply (hvalue value).bind
      intro v
      exact (Run.Keeps.printLine _).bind fun _ => .pure _
  | expr span value =>
      rw [exec]
      apply (Run.Keeps.tick limits span).bind
      intro _
      exact (hvalue value).bind fun _ => .pure _
  | unknown span code =>
      rw [exec]
      exact (Run.Keeps.tick limits span).bind fun _ => .fail _ _
  | missing id => apply Run.Keeps.fail

theorem keeps_execAll {deeper : Deeper} (hdeeper : deeper.Keeps) (ss : List Stmt) :
  Run.Keeps 1 (execAll limits deeper ss)
  := by
  cases ss with
  | nil => apply Run.Keeps.pure
  | cons st ss =>
      rw [execAll]
      apply (keeps_exec hdeeper st).bind
      intro signal
      cases signal with
      | next => exact keeps_execAll hdeeper ss
      | returned v => apply Run.Keeps.pure

end

end Stmt

namespace Deeper

/-- How the body of a function is run where calls may nest `levels` deep. -/
def ofLevels (limits : RunLimits) : (levels : Nat) → Deeper
  | 0 => none
  | levels + 1 => some (runBody limits levels)

theorem runBody_eq (limits : RunLimits) (levels : Nat) (body : List Stmt) :
  runBody limits levels body = Stmt.execAll limits (ofLevels limits levels) body
  := by
  cases levels with
  | zero => rfl
  | succ levels => rfl

theorem keeps_ofLevels (limits : RunLimits) (levels : Nat) :
  (ofLevels limits levels).Keeps
  := by
  induction levels with
  | zero => exact keeps_none
  | succ levels ih =>
      apply keeps_some
      intro body
      rw [runBody_eq]
      exact Stmt.keeps_execAll ih body

theorem descends_ofLevels (limits : RunLimits) (levels : Nat) :
  Descends limits levels (ofLevels limits levels)
  := by
  cases levels with
  | zero => rfl
  | succ levels => exact ⟨_, rfl, follows_runBody limits levels⟩

end Deeper

/-! ### Where a fault is raised -/

namespace RunPoint

/-- The steps from the point `p` on come to the state `t`, and the next one ends in the fault. -/
def Raises (limits : RunLimits) (p : RunPoint) (f : Fault) (t : RunState) : Prop :=
  ∃ k t', p.Leads limits (going k t) ∧ (going k t).next limits = ended (some f) t'

variable {k : RunStack} {s t : RunState} {f : Fault}

theorem Raises.traces {p : RunPoint} (h : p.Raises limits f t) :
  f.Traces t
  := by
  obtain ⟨k, t', -, hnext⟩ := h
  exact (moves_next limits (going k t)).traces hnext

/-- Steps that end in a fault have a last one. -/
theorem Leads.exists_raises (h : (going k s).Leads limits (ended (some f) t)) :
  ∃ t', (going k s).Raises limits f t'
  := by
  obtain ⟨n, hn⟩ := h
  induction n generalizing k s with
  | zero => cases hn
  | succ n ih =>
      rw [Function.iterate_succ_apply] at hn
      cases hnext : (going k s).next limits with
      | going k' s' =>
          rw [hnext] at hn
          obtain ⟨t', k'', t'', hleads, hraises⟩ := ih hn
          exact ⟨t', k'', t'', .step hnext hleads, hraises⟩
      | ended fault s' =>
          rw [hnext, Function.iterate_fixed rfl] at hn
          cases hn
          exact ⟨s, k, t, .refl _, hnext⟩

end RunPoint

/-- The fault of a computation that is followed is raised in a state, and lists the calls there. -/
theorem Follows.exists_raises {x : Run α} {start : RunStack} {finish : α → RunStack} {s : RunState}
    {f : Fault} (h : Follows limits start x finish s) (hf : (x.run s).1 = .error f) :
  ∃ t, (going start s).Raises limits f t ∧ f.Traces t
  := by
  rw [Follows] at h
  rcases hrun : x.run s with ⟨e | a, s'⟩
  · rw [hrun] at h hf
    cases hf
    cases h with
    | fault hleads _ _ =>
        obtain ⟨t, ht⟩ := hleads.exists_raises
        exact ⟨t, ht, ht.traces⟩
  · rw [hrun] at hf
    cases hf

/-- A fault of what is done from `start` on in the state `s` lists, the innermost first, the calls
under way where it was raised; among them, at the end, are those of `s`. -/
def Fault.TracesFrom (limits : RunLimits) (start : RunStack) (s : RunState) (f : Fault) : Prop :=
  ∃ t, (going start s).Raises limits f t ∧ f.backtrace = t.frames.map (·.site)
    ∧ s.frames.map (·.site) <:+ f.backtrace

/-- Calls are isolated from one another.  In every state, evaluating an expression leaves the calls
under way and all of their variables as they are.  Running a statement leaves the calls under way,
and the variables of all of them but the innermost one.  Both hold also after a fault, and the fault
lists exactly the calls that were under way where it was raised. -/
theorem calls_are_isolated (limits : RunLimits) (s : RunState) :
  let deeper := Deeper.ofLevels limits (limits.depth - s.frames.length)
  (∀ e : Expr, ((e.eval limits deeper).run s).2.frames = s.frames
      ∧ ∀ f, ((e.eval limits deeper).run s).1 = .error f →
        f.TracesFrom limits (RunStack.plan {} [.eval e]) s)
    ∧ ∀ st : Stmt, ((st.exec limits deeper).run s).2.frames.map (·.site) = s.frames.map (·.site)
      ∧ ((st.exec limits deeper).run s).2.frames.tail = s.frames.tail
      ∧ ∀ f, ((st.exec limits deeper).run s).1 = .error f →
        f.TracesFrom limits (RunStack.plan {} [.exec st]) s
  := by
  intro deeper
  have hkeeps := Deeper.keeps_ofLevels limits (limits.depth - s.frames.length)
  have hdescends := Deeper.descends_ofLevels limits (limits.depth - s.frames.length)
  constructor
  · intro e
    have heval : Run.Keeps 0 (e.eval limits deeper) := e.keeps_eval hkeeps
    obtain ⟨hsame, hback⟩ := heval s
    refine ⟨hsame.frames_eq, ?_⟩
    intro f hf
    obtain ⟨t, hraises, htraces⟩ := (e.follows_eval hdescends {} s rfl).exists_raises hf
    exact ⟨t, hraises, htraces, hback f hf⟩
  · intro st
    have hexec : Run.Keeps 1 (st.exec limits deeper) := st.keeps_exec hkeeps
    obtain ⟨hsame, hback⟩ := hexec s
    refine ⟨hsame.sites, ?_, ?_⟩
    · rw [← List.drop_one, ← List.drop_one]
      exact hsame.outer
    · intro f hf
      obtain ⟨t, hraises, htraces⟩ := (st.follows_exec hdescends {} s rfl).exists_raises hf
      exact ⟨t, hraises, htraces, hback f hf⟩

/-- Inside of a call of `h`, with two more functions: `f` calls `g`, which changes its parameter and
then a name that is not bound. -/
def nestedCalls : RunState where
  frames := [⟨⟨"h", ⟨0, 1, 2⟩⟩, .ofList [("x", .boolean true)]⟩]
  functions := .ofList [
    ("f", ⟨["x"], [.expr {} (.call ⟨0, 3, 4⟩ "g" {} [.ident {} "x"])]⟩),
    ("g", ⟨["x"], [.assign {} "x" {} (.literal {} .boolean "false"),
      .assign {} "y" {} (.ident {} "x")]⟩)]

theorem nestedCalls_isolated :
  let limits : RunLimits := { steps := 10, depth := 3 }
  let e : Expr := .call ⟨0, 5, 6⟩ "f" {} [.ident {} "x"]
  let r := (e.eval limits (Deeper.ofLevels limits 2)).run nestedCalls
  ∃ f, r.1 = .error f ∧ f.backtrace = [⟨"g", ⟨0, 3, 4⟩⟩, ⟨"f", ⟨0, 5, 6⟩⟩, ⟨"h", ⟨0, 1, 2⟩⟩]
    ∧ r.2.frames = nestedCalls.frames
    ∧ f.TracesFrom limits (RunStack.plan {} [.eval e]) nestedCalls
  := by
  intro limits e r
  have hisolated := (calls_are_isolated limits nestedCalls).1 e
  refine ⟨⟨.undefinedVariable "y", {}, _⟩, rfl, rfl, hisolated.1, hisolated.2 _ rfl⟩

end ThreeAddress
