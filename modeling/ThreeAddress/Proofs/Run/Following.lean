import ThreeAddress.Proofs.Run.Stepwise

/-!
# Stepwise runs come to an end

Evaluation recurses on the syntax, on the levels of calls that are left, and on the rounds that a
loop may still have.  The steps of a run have none of these bounds: a loop plans its body and itself
again, a call plans the body of its function.  `Follows` says that the steps do what a computation
of the evaluator does, and there is one law for each way in which the evaluator puts computations
together.  So every run comes to an end, with the result that the evaluator gives.
-/

namespace ThreeAddress

open RunPoint

variable {α β : Type} {limits : RunLimits} {levels : Nat} {s : RunState} {k start : RunStack}

/-- Calls may nest `levels` deeper. -/
def RunState.Room (limits : RunLimits) (levels : Nat) (s : RunState) : Prop :=
  levels = limits.depth - s.frames.length

/-- Where the steps from `start` on lead in the state `s`, as a computation has it that gives the
result: to `finish` of its value in the same state, or to its fault after the same output. -/
inductive Lands (limits : RunLimits) (start : RunStack) (s : RunState) (finish : α → RunStack) :
    Except Fault α × RunState → Prop
  | value {a : α} {s' : RunState} (hframes : s'.frames.length = s.frames.length)
      (hleads : (going start s).Leads limits (going (finish a) s')) :
      Lands limits start s finish (.ok a, s')
  | fault {f : Fault} {s' t : RunState}
      (hleads : (going start s).Leads limits (ended (some f) t))
      (houtput : t.output = s'.output) (hstats : t.stats = s'.stats) :
      Lands limits start s finish (.error f, s')

/-- The steps from `start` on do what the computation does in the state `s`. -/
def Follows (limits : RunLimits) (start : RunStack) (x : Run α) (finish : α → RunStack)
    (s : RunState) : Prop :=
  Lands limits start s finish (x.run s)

theorem Lands.before {start' : RunStack} {s' : RunState} {finish : α → RunStack}
    {r : Except Fault α × RunState}
    (hleads : (going start s).Leads limits (going start' s'))
    (hframes : s'.frames.length = s.frames.length) (h : Lands limits start' s' finish r) :
  Lands limits start s finish r
  := by
  cases h with
  | value hframes' hleads' => exact .value (hframes'.trans hframes) (hleads.trans hleads')
  | fault hleads' houtput hstats => exact .fault (hleads.trans hleads') houtput hstats

/-- The next point of a run with a task to do. -/
theorem next_plan (limits : RunLimits) (k : RunStack) (task : RunTask) (s : RunState) :
  (going (k.plan [task]) s).next limits
    = ofResult ((task.perform limits k).run s)
  := rfl

namespace Follows

variable {x : Run α} {finish : α → RunStack}

/-- A computation that is done without a step. -/
theorem pure {a : α} (h : finish a = start) :
  Follows limits start (Pure.pure a) finish s
  := .value rfl (h ▸ .refl _)

/-- One computation after another. -/
theorem bind {f : α → Run β} {finish' : β → RunStack} (hs : s.Room limits levels)
    (hx : Follows limits start x finish s)
    (hf : ∀ a s', x.run s = (.ok a, s') → s'.Room limits levels → s.stats.steps ≤ s'.stats.steps →
      Follows limits (finish a) (f a) finish' s') :
  Follows limits start (x >>= f) finish' s
  := by
  rw [Follows] at hx
  rw [Follows, Fallible.run_bind]
  rcases hrun : x.run s with ⟨e | a, s'⟩
  · rw [hrun] at hx
    cases hx with
    | fault hleads houtput hstats => exact .fault hleads houtput hstats
  · rw [hrun] at hx
    cases hx with
    | value hframes hleads =>
        have hroom : s'.Room limits levels := by
          rw [RunState.Room, hframes]
          exact hs
        exact (hf a s' hrun hroom hleads.steps_le).before hleads hframes

/-- A step that only plans tasks. -/
theorem planned {task : RunTask} {k' : RunStack} (h : task.perform limits k = Pure.pure k')
    (hx : Follows limits k' x finish s) :
  Follows limits (k.plan [task]) x finish s
  := by
  have hnext : (going (k.plan [task]) s).next limits = going k' s := by
    rw [next_plan, h]
    rfl
  exact Lands.before ⟨1, hnext⟩ rfl hx

/-- A computation that is a single task. -/
theorem single {task : RunTask} (hplain : task.isPlain)
    (h : (task.perform limits k).run s
      = (do let a ← x; Pure.pure (finish a) : Run RunStack).run s) :
  Follows limits (k.plan [task]) x finish s
  := by
  have hframes : ((task.perform limits k).run s).2.frames.length = s.frames.length := by
    obtain ⟨f, hf, -⟩ | ⟨s', hs', hcounts⟩ := task.perform_cases limits k s
    · rw [hf]
      rfl
    · rw [hs', ← hcounts.frames]
      have hacts : RunTask.Acts limits.depth k s' _ := RunTask.acts_act hplain
      exact hacts.quiet.frames
  have hnext := next_plan limits k task s
  rw [h, Fallible.run_bind] at hframes hnext
  rw [Follows]
  rcases hx : x.run s with ⟨f | a, s'⟩
  · rw [hx] at hnext
    exact .fault ⟨1, hnext⟩ rfl rfl
  · rw [hx] at hframes hnext
    exact .value hframes ⟨1, hnext⟩

end Follows

/-- A computation that counts a step and plans tasks. -/
theorem follows_tick {task : RunTask} {span : Span} {k' : RunStack} (hplain : task.isPlain)
    (hcounted : task.counted? = some span) (hact : task.act limits.depth k = pure k') :
  Follows limits (k.plan [task]) (Run.tick limits span) (fun _ => k') s
  := by
  apply Follows.single hplain
  rw [RunTask.perform_of_some hcounted, hact]

/-- A computation that counts a step and does a single task. -/
theorem follows_counted {task : RunTask} {span : Span} {x : Run α} {finish : α → RunStack}
    (hplain : task.isPlain) (hcounted : task.counted? = some span)
    (h : ∀ s, (task.act limits.depth k).run s
      = (do let a ← x; pure (finish a) : Run RunStack).run s) :
  Follows limits (k.plan [task]) (do Run.tick limits span; x) finish s
  := by
  apply Follows.single hplain
  rw [RunTask.perform_of_some hcounted, Fallible.run_bind, Fallible.run_bind, Fallible.run_bind]
  rcases (Run.tick limits span).run s with ⟨f | _, s₁⟩
  · rfl
  · exact (h s₁).trans (Fallible.run_bind _ _ _)

/-- The steps do what evaluating the expression does. -/
def FollowsEval (limits : RunLimits) (levels : Nat) (e : Expr) (x : Run Value) : Prop :=
  ∀ (k : RunStack) (s : RunState), s.Room limits levels →
    Follows limits (k.plan [.eval e]) x k.give s

/-- The steps do what running the statements does. -/
def FollowsExec (limits : RunLimits) (levels : Nat) (ss : List Stmt) (x : Run Signal) : Prop :=
  ∀ (k : RunStack) (s : RunState), s.Room limits levels →
    Follows limits (k.plan (ss.map .exec)) x k.after s

/-- An expression is evaluated first, and then something is done with its value. -/
theorem Follows.operand {e : Expr} {ts : List RunTask} {x : Run Value} {f : Value → Run α}
    {finish : α → RunStack} (hx : FollowsEval limits levels e x) (hs : s.Room limits levels)
    (hf : ∀ v s', s'.Room limits levels → s.stats.steps ≤ s'.stats.steps →
      Follows limits ((k.give v).plan ts) (f v) finish s') :
  Follows limits (k.plan (.eval e :: ts)) (x >>= f) finish s
  := by
  apply Follows.bind hs (hx (k.plan ts) s hs)
  intro v s' _ hs' hle
  exact hf v s' hs' hle

/-- A statement that counts a step, and then does something with the value of an expression. -/
theorem Follows.statement {st : Stmt} {value : Expr} {task : RunTask} {x : Run Value}
    {f : Value → Run Signal} {span : Span} (hcounted : (RunTask.exec st).counted? = some span)
    (hact : (RunTask.exec st).act limits.depth k = Pure.pure (k.plan [.eval value, task]))
    (hx : FollowsEval limits levels value x) (hs : s.Room limits levels)
    (hf : ∀ v s', s'.Room limits levels →
      Follows limits ((k.give v).plan [task]) (f v) k.after s') :
  Follows limits (k.plan [.exec st]) (do
    Run.tick limits span
    let v ← x
    f v) k.after s
  := by
  apply Follows.bind hs (follows_tick rfl hcounted hact)
  intro _ s₁ _ hs₁ _
  apply Follows.operand hx hs₁
  intro v s₂ hs₂ _
  exact hf v s₂ hs₂

theorem RunStack.plan_append (k : RunStack) (ts ts' : List RunTask) :
  k.plan (ts ++ ts') = (k.plan ts').plan ts
  := by
  rw [plan, plan, plan, List.append_assoc]

/-- What is planned before the end of a call is skipped by a return. -/
theorem RunStack.after_plan {ts : List RunTask} (h : ts.all (!·.isLeave)) (k : RunStack) (v : Value) :
  (k.plan ts).after (.returned v) = k.after (.returned v)
  := by
  rw [after, after, plan, List.dropWhile_append_of_pos (List.all_eq_true.mp h)]

/-! ### Calls and loops -/

theorem run_inFrame (frame : CallFrame) (x : Run α) (s : RunState) :
  (Run.inFrame frame x).run s
    = ((x.run (s.enter frame)).1, (x.run (s.enter frame)).2.leave)
  := rfl

theorem run_callFunction (run : List Stmt → Run Signal) (f : FunctionBody) (site : CallSite)
    (vs : List Value) (s : RunState) :
  (callFunction run f site vs).run s
    = match (run f.body).run (s.enter ⟨site, .ofList (f.params.zip vs)⟩) with
      | (.ok .next, t) => (.ok .void, t.leave)
      | (.ok (.returned v), t) => (.ok v, t.leave)
      | (.error e, t) => (.error e, t.leave)
  := by
  rw [callFunction, Fallible.run_bind, run_inFrame]
  rcases (run f.body).run (s.enter ⟨site, .ofList (f.params.zip vs)⟩) with ⟨e | _ | v, t⟩
  · rfl
  · rfl
  · rfl

/-- A call that is entered finds its arguments on top of the values. -/
theorem next_call (limits : RunLimits) (k : RunStack) (f : FunctionBody) (site : CallSite)
    (vs : List Value) (s : RunState) :
  (going (RunStack.plan { k with values := vs.reverse ++ k.values } [.call f site vs.length])
      s).next limits
    = going ((k.plan [.finish, .leave]).plan (f.body.map .exec))
      (s.enter ⟨site, .ofList (f.params.zip vs)⟩)
  := by
  rw [next_plan, RunTask.perform_of_none rfl, RunTask.run_act_call, ofResult]
  simp only [RunStack.without, RunStack.plan, List.take_left', List.drop_left', List.length_reverse,
    List.reverse_reverse, List.append_assoc]

/-- A call does what the body of its function does in a frame of its own. -/
theorem follows_callFunction {run : List Stmt → Run Signal}
    (hrun : ∀ body, FollowsExec limits levels body (run body))
    (f : FunctionBody) (site : CallSite) (vs : List Value) (hs : s.Room limits (levels + 1)) :
  Follows limits (RunStack.plan { k with values := vs.reverse ++ k.values }
      [.call f site vs.length])
    (callFunction run f site vs) k.give s
  := by
  let frame : CallFrame := ⟨site, .ofList (f.params.zip vs)⟩
  have hroom : (s.enter frame).Room limits levels := by
    have hdepth : levels + 1 = limits.depth - s.frames.length := hs
    change levels = limits.depth - (s.frames.length + 1)
    omega
  have henter := next_call limits k f site vs s
  have hbody : Lands limits _ _ (k.plan [.finish, .leave]).after _ :=
    hrun f.body (k.plan [.finish, .leave]) (s.enter frame) hroom
  rw [Follows, run_callFunction]
  rcases hr : (run f.body).run (s.enter frame) with ⟨e | signal, t⟩
  · rw [hr] at hbody
    cases hbody with
    | fault hleads houtput hstats => exact .fault (.step henter hleads) houtput hstats
  · rw [hr] at hbody
    cases hbody with
    | value hframes hleads =>
        have hleft : t.leave.frames.length = s.frames.length := by
          change t.frames.tail.length = _
          rw [List.length_tail, hframes]
          rfl
        cases signal with
        | next =>
            apply Lands.value hleft
            exact .step henter (hleads.trans ⟨2, rfl⟩)
        | returned v =>
            apply Lands.value hleft
            exact .step henter (hleads.trans ⟨1, rfl⟩)

/-- A loop that begins within the limit of steps does what its rounds do.  It does not run out of
rounds, since each one counts a step. -/
theorem follows_runLoop {span : Span} {cond : Expr} {body : List Stmt} {test : Run Value}
    {round : Run Signal} (htest : FollowsEval limits levels cond test)
    (hround : FollowsExec limits levels body round)
    {rounds : Nat} (hs : s.Room limits levels) (hsteps : s.stats.steps ≤ limits.steps)
    (hrounds : limits.steps < s.stats.steps + rounds) :
  Follows limits (k.plan [.eval cond, .test span cond body])
    (runLoop limits span test round rounds) k.after s
  := by
  induction rounds generalizing s with
  | zero => omega
  | succ rounds ih =>
      rw [runLoop]
      apply Follows.operand htest hs
      intro c s₁ hs₁ hle₁
      have hperform : RunTask.perform limits (k.give c) (.test span cond body)
          = if c.truthy then pure (k.plan (body.map .exec ++ [.again span cond body]))
            else pure k := rfl
      cases hc : c.truthy with
      | false =>
          rw [hc] at hperform
          exact Follows.planned (k := k.give c) hperform (.pure rfl)
      | true =>
          rw [hc, if_pos rfl, RunStack.plan_append] at hperform
          apply Follows.planned (k := k.give c) hperform
          apply Follows.bind hs₁ (hround (k.plan [.again span cond body]) s₁ hs₁)
          intro signal s₂ _ hs₂ hle₂
          cases signal with
          | returned v => exact .pure (RunStack.after_plan rfl k v).symm
          | next =>
              apply Follows.bind hs₂ (follows_tick rfl rfl rfl)
              intro _ s₃ htick hs₃ _
              obtain ⟨rfl, hsteps₃⟩ := Run.counted_of_tick htick
              apply ih hs₃ hsteps₃
              change _ < s₂.stats.steps + 1 + rounds
              omega

/-! ### Expressions -/

/-- What calls do one level further down. -/
def Descends (limits : RunLimits) : Nat → Deeper → Prop
  | 0, deeper => deeper = none
  | levels + 1, deeper =>
    ∃ run, deeper = some run ∧ ∀ body, FollowsExec limits levels body (run body)

theorem Descends.exists_run {deeper : Deeper} {run : List Stmt → Run Signal}
    (h : Descends limits levels deeper) (hrun : deeper = some run) :
  ∃ levels', levels = levels' + 1 ∧ ∀ body, FollowsExec limits levels' body (run body)
  := by
  cases levels with
  | zero =>
      rw [hrun] at h
      cases h
  | succ levels =>
      obtain ⟨run', hrun', hfollows⟩ : ∃ run, deeper = some run ∧ _ := h
      rw [hrun] at hrun'
      cases hrun'
      exact ⟨levels, rfl, hfollows⟩

/-- Whether a call has room can be seen from the levels that are left as well as from the calls
under way. -/
theorem run_findFunction {deeper : Deeper} (hdeeper : Descends limits levels deeper)
    (hs : s.Room limits levels) (span : Span) (name : Text) (nameSpan : Span) (args : Nat) :
  ∃ run, (findFunction limits deeper span name nameSpan args).run s
    = match (findCallee limits.depth span name nameSpan args).run s with
      | (.ok f, t) => (.ok (f, run), t)
      | (.error e, t) => (.error e, t)
  := by
  have hdepth : levels = limits.depth - s.frames.length := hs
  cases levels with
  | zero =>
      obtain rfl : deeper = none := hdeeper
      have hfull : limits.depth ≤ s.frames.length := by omega
      use fun _ => pure .next
      rw [findFunction, findCallee, Fallible.run_get_bind, Fallible.run_get_bind]
      cases s.functions.get? name with
      | none => rfl
      | some f =>
          dsimp only
          rw [if_pos hfull]
          split
          · rfl
          · rfl
  | succ levels =>
      obtain ⟨run, rfl, -⟩ : ∃ run, deeper = some run ∧ _ := hdeeper
      have hroom : ¬ limits.depth ≤ s.frames.length := by omega
      use run
      rw [findFunction, findCallee, Fallible.run_get_bind, Fallible.run_get_bind]
      cases s.functions.get? name with
      | none => rfl
      | some f =>
          dsimp only
          rw [if_neg hroom]
          split
          · rfl
          · rfl

/-- The steps find the function of a call. -/
theorem follows_findFunction {deeper : Deeper} (hdeeper : Descends limits levels deeper)
    (hs : s.Room limits levels) (span : Span) (name : Text) (nameSpan : Span) (args : List Expr) :
  Follows limits (k.plan [.eval (.call span name nameSpan args)])
    (findFunction limits deeper span name nameSpan args.length)
    (fun r => k.plan (args.map .eval ++ [.call r.1 ⟨name, span⟩ args.length])) s
  := by
  obtain ⟨run, hfind⟩ := run_findFunction hdeeper hs span name nameSpan args.length
  have hnext := next_plan limits k (.eval (.call span name nameSpan args)) s
  rw [RunTask.perform_of_none rfl, RunTask.act, Expr.begin, Fallible.run_bind] at hnext
  rw [Follows, hfind]
  obtain ⟨f, hf, -⟩ | ⟨f, hf, -⟩ := findCallee_cases limits.depth span name nameSpan args.length s
  · rw [hf] at hnext ⊢
    exact .value rfl ⟨1, hnext⟩
  · rw [hf] at hnext ⊢
    exact .fault ⟨1, hnext⟩ rfl rfl

/-- A function is found where there is a level for it. -/
theorem eq_some_of_findFunction {deeper : Deeper} {span : Span} {name : Text} {nameSpan : Span}
    {args : Nat} {f : FunctionBody} {run : List Stmt → Run Signal} {s s' : RunState}
    (h : (findFunction limits deeper span name nameSpan args).run s = (.ok (f, run), s')) :
  deeper = some run
  := by
  rw [findFunction, Fallible.run_get_bind] at h
  split at h
  · cases h
  · split at h
    · cases h
    · split at h
      · cases h
      · cases h
        rfl

theorem Expr.length_evalAll {deeper : Deeper} {es : List Expr} {vs : List Value} {s s' : RunState}
    (h : (evalAll limits deeper es).run s = (.ok vs, s')) :
  vs.length = es.length
  := by
  induction es generalizing vs s s' with
  | nil =>
      obtain ⟨rfl, -⟩ := Fallible.run_pure_ok.mp h
      rfl
  | cons e es ih =>
      rw [evalAll] at h
      simp only [Fallible.run_bind_ok, Fallible.run_pure_ok] at h
      obtain ⟨v, s₁, -, vs, s₂, hvs, rfl, -⟩ := h
      rw [List.length_cons, List.length_cons, ih hvs]

/-- An operator that needs both operands. -/
theorem follows_binary {span : Span} {op : BinaryOp} {left right : Expr} {x y : Run Value}
    (hbegin : ∀ k, (Expr.binary span op left right).begin limits.depth k
      = pure (k.plan [.eval left, .eval right, .binary span op]))
    (hx : FollowsEval limits levels left x) (hy : FollowsEval limits levels right y) :
  FollowsEval limits levels (.binary span op left right) (do
    let l ← x
    let r ← y
    binaryValue span op l r)
  := by
  intro k s hs
  have hperform : RunTask.perform limits k (.eval (.binary span op left right)) = _ := hbegin k
  apply Follows.planned hperform
  apply Follows.operand hx hs
  intro l s₁ hs₁ _
  apply Follows.operand hy hs₁
  intro r s₂ hs₂ _
  exact Follows.single rfl rfl

/-- The second operand of a lazy operator. -/
theorem follows_truth {right : Expr} {y : Run Value} (hy : FollowsEval limits levels right y)
    (hs : s.Room limits levels) :
  Follows limits (k.plan [.eval right, .truth]) (do
    let r ← y
    return .boolean r.truthy) k.give s
  := by
  apply Follows.operand hy hs
  intro r s₁ hs₁ _
  exact Follows.single rfl rfl

theorem follows_and {span : Span} {left right : Expr} {x y : Run Value}
    (hx : FollowsEval limits levels left x) (hy : FollowsEval limits levels right y) :
  FollowsEval limits levels (.binary span .and left right) (do
    let l ← x
    if l.truthy then
      let r ← y
      return .boolean r.truthy
    else return .boolean false)
  := by
  intro k s hs
  apply Follows.planned rfl
  apply Follows.operand hx hs
  intro l s₁ hs₁ _
  have hperform : RunTask.perform limits (k.give l) (.andThen right)
      = if l.truthy then pure (k.plan [.eval right, .truth])
        else pure (k.give (.boolean false)) := rfl
  split
  · next htrue =>
    rw [if_pos htrue] at hperform
    exact Follows.planned hperform (follows_truth hy hs₁)
  · next hfalse =>
    rw [if_neg hfalse] at hperform
    exact Follows.planned hperform (.pure rfl)

theorem follows_or {span : Span} {left right : Expr} {x y : Run Value}
    (hx : FollowsEval limits levels left x) (hy : FollowsEval limits levels right y) :
  FollowsEval limits levels (.binary span .or left right) (do
    let l ← x
    if l.truthy then return .boolean true
    else
      let r ← y
      return .boolean r.truthy)
  := by
  intro k s hs
  apply Follows.planned rfl
  apply Follows.operand hx hs
  intro l s₁ hs₁ _
  have hperform : RunTask.perform limits (k.give l) (.orElse right)
      = if l.truthy then pure (k.give (.boolean true))
        else pure (k.plan [.eval right, .truth]) := rfl
  split
  · next htrue =>
    rw [if_pos htrue] at hperform
    exact Follows.planned hperform (.pure rfl)
  · next hfalse =>
    rw [if_neg hfalse] at hperform
    exact Follows.planned hperform (follows_truth hy hs₁)

mutual

/-- The steps do what evaluating an expression does. -/
theorem Expr.follows_eval {deeper : Deeper} (hdeeper : Descends limits levels deeper) (e : Expr) :
  FollowsEval limits levels e (e.eval limits deeper)
  := by
  intro k s hs
  cases e with
  | literal span kind text => exact Follows.single rfl rfl
  | ident span name => exact Follows.single rfl rfl
  | unknown span code => exact Follows.single rfl rfl
  | missing id => exact Follows.single rfl rfl
  | group span inner =>
      rw [eval]
      exact Follows.planned rfl (follows_eval hdeeper inner k s hs)
  | unary span op operand =>
      rw [eval]
      apply Follows.planned rfl
      apply Follows.operand (follows_eval hdeeper operand) hs
      intro v s₁ hs₁ _
      exact Follows.single rfl rfl
  | binary span op left right =>
      have hleft := follows_eval hdeeper left
      have hright := follows_eval hdeeper right
      cases op with
      | and =>
          rw [eval]
          exact follows_and hleft hright k s hs
      | or =>
          rw [eval]
          exact follows_or hleft hright k s hs
      | _ => exact follows_binary (fun _ => rfl) hleft hright k s hs
  | call span name nameSpan args =>
      rw [eval]
      apply Follows.bind hs (follows_findFunction hdeeper hs span name nameSpan args)
      rintro ⟨f, run⟩ s₁ hf hs₁ _
      obtain ⟨levels', hlevels, hrun⟩ := hdeeper.exists_run (eq_some_of_findFunction hf)
      dsimp only
      rw [RunStack.plan_append]
      have hargs := follows_evalAll hdeeper args (k.plan [.call f ⟨name, span⟩ args.length]) hs₁
      apply Follows.bind hs₁ hargs
      intro vs s₂ hvs hs₂ _
      rw [hlevels] at hs₂
      have hcall := follows_callFunction (k := k) hrun f ⟨name, span⟩ vs hs₂
      rw [length_evalAll hvs] at hcall
      exact hcall

/-- The steps do what evaluating arguments does. -/
theorem Expr.follows_evalAll {deeper : Deeper} (hdeeper : Descends limits levels deeper)
    (es : List Expr) (k : RunStack) {s : RunState} (hs : s.Room limits levels) :
  Follows limits (k.plan (es.map .eval)) (evalAll limits deeper es)
    (fun vs => { k with values := vs.reverse ++ k.values }) s
  := by
  cases es with
  | nil => exact .pure rfl
  | cons e es =>
      rw [evalAll]
      rw [List.map_cons]
      apply Follows.operand (follows_eval hdeeper e) hs
      intro v s₁ hs₁ _
      apply Follows.bind hs₁ (follows_evalAll hdeeper es (k.give v) hs₁)
      intro vs s₂ _ hs₂ _
      apply Follows.pure
      simp [RunStack.give]

end

/-! ### Statements -/

mutual

/-- The steps do what running a statement does. -/
theorem Stmt.follows_exec {deeper : Deeper} (hdeeper : Descends limits levels deeper) (st : Stmt) :
  FollowsExec limits levels [st] (st.exec limits deeper)
  := by
  intro k s hs
  change Follows limits (k.plan [.exec st]) _ _ _
  cases st with
  | letVar span name nameSpan value =>
      rw [exec]
      apply Follows.statement rfl rfl (value.follows_eval hdeeper) hs
      intro v s₁ hs₁
      exact Follows.single rfl rfl
  | assign span name nameSpan value =>
      rw [exec]
      apply Follows.statement rfl rfl (value.follows_eval hdeeper) hs
      intro v s₁ hs₁
      apply Follows.single rfl
      rw [RunTask.perform_of_none rfl, RunTask.act, Fallible.run_get_bind, Fallible.run_bind,
        Fallible.run_get_bind]
      change (match s₁.assign name v with
        | some s => _
        | none => _ : Run RunStack).run s₁ = _
      cases s₁.assign name v with
      | none => rfl
      | some s => rfl
  | ifElse span cond thenBody elseBody hasElse =>
      rw [exec]
      let branches := if hasElse then elseBody else []
      apply Follows.statement rfl rfl (cond.follows_eval hdeeper) hs
      intro c s₁ hs₁
      have hperform : RunTask.perform limits (k.give c) (.branch thenBody branches)
          = pure (k.plan ((if c.truthy then thenBody else branches).map .exec)) := rfl
      apply Follows.planned hperform
      split
      · exact follows_execAll hdeeper thenBody k s₁ hs₁
      · dsimp only [branches]
        split
        · exact follows_execAll hdeeper elseBody k s₁ hs₁
        · exact .pure rfl
  | «while» span cond body =>
      rw [exec]
      apply Follows.bind hs (follows_tick rfl rfl rfl)
      intro _ s₁ htick hs₁ _
      obtain ⟨rfl, hsteps⟩ := Run.counted_of_tick htick
      exact follows_runLoop (cond.follows_eval hdeeper) (follows_execAll hdeeper body) hs₁ hsteps
        (by omega)
  | function span name nameSpan params body =>
      rw [exec]
      exact follows_counted rfl rfl fun _ => rfl
  | ret span value =>
      cases value with
      | none =>
          rw [exec]
          apply follows_counted rfl rfl
          intro s₁
          rw [RunTask.act, Stmt.begin, Fallible.run_get_bind, Fallible.run_bind,
            Fallible.run_get_bind]
          split
          · rfl
          · rfl
      | some value =>
          rw [exec]
          apply Follows.statement rfl rfl (value.follows_eval hdeeper) hs
          intro v s₁ hs₁
          apply Follows.single rfl
          rw [RunTask.perform_of_none rfl, RunTask.act, Fallible.run_get_bind, Fallible.run_bind,
            Fallible.run_get_bind]
          split
          · rfl
          · rfl
  | print span value =>
      rw [exec]
      apply Follows.statement rfl rfl (value.follows_eval hdeeper) hs
      intro v s₁ hs₁
      exact Follows.single rfl rfl
  | expr span value =>
      rw [exec]
      apply Follows.statement rfl rfl (value.follows_eval hdeeper) hs
      intro v s₁ hs₁
      exact Follows.single rfl rfl
  | unknown span code =>
      rw [exec]
      exact follows_counted rfl rfl fun _ => rfl
  | missing id => exact Follows.single rfl rfl

/-- The steps do what running statements one after another does. -/
theorem Stmt.follows_execAll {deeper : Deeper} (hdeeper : Descends limits levels deeper)
    (ss : List Stmt) :
  FollowsExec limits levels ss (execAll limits deeper ss)
  := by
  intro k s hs
  cases ss with
  | nil => exact .pure rfl
  | cons st ss =>
      rw [execAll]
      apply Follows.bind hs (follows_exec hdeeper st (k.plan (ss.map .exec)) s hs)
      intro signal s₁ _ hs₁ _
      cases signal with
      | next => exact follows_execAll hdeeper ss k s₁ hs₁
      | returned v => exact .pure (RunStack.after_plan (by simp [RunTask.isLeave]) k v).symm

end

/-- The steps do what running statements does where calls may nest `levels` deep. -/
theorem follows_runBody (limits : RunLimits) (levels : Nat) (body : List Stmt) :
  FollowsExec limits levels body (runBody limits levels body)
  := by
  induction levels generalizing body with
  | zero =>
      have hdescends : Descends limits 0 none := rfl
      exact Stmt.follows_execAll hdescends body
  | succ levels ih =>
      have hdescends : Descends limits (levels + 1) (some (runBody limits levels)) :=
        ⟨_, rfl, ih⟩
      exact Stmt.follows_execAll hdescends body

/-- Every run comes to an end, with the result that the evaluator gives. -/
theorem RunPoint.exists_end (limits : RunLimits) (program : List Stmt) :
  ∃ n fault s, RunPoint.after limits program n = .ended fault s
    ∧ runProgram limits program = ⟨s.output, s.stats, fault⟩
  := by
  have hroom : ({} : RunState).Room limits limits.depth := rfl
  have hlands : Lands limits _ _ _ _ := follows_runBody limits limits.depth program {} {} hroom
  rw [runProgram]
  rcases hrun : (runBody limits limits.depth program).run {} with ⟨f | signal, s⟩
  · rw [hrun] at hlands
    cases hlands with
    | fault hleads houtput hstats =>
        obtain ⟨n, hn⟩ := hleads
        refine ⟨n, some f, _, hn, ?_⟩
        rw [houtput, hstats]
  · rw [hrun] at hlands
    cases hlands with
    | value hframes hleads =>
        have hend : (going (RunStack.after {} signal) s).next limits = ended none s := by
          cases signal with
          | next => rfl
          | returned v => rfl
        obtain ⟨n, hn⟩ := hleads.trans (.step hend (.refl _))
        exact ⟨n, none, s, hn, rfl⟩

end ThreeAddress
