import Mathlib.Logic.Function.Iterate
import ThreeAddress.Proofs.Fallible
import ThreeAddress.Run.Eval

/-!
# Runs one step at a time

A run is taken apart into single steps: a list of tasks that are still to be done, the values
computed so far that tasks will need, and the state of the run.  A step does the first task, which
may put new tasks in its place.  Nothing bounds the number of steps here, and loops and calls put
their own bodies back among the tasks: whether a run comes to an end, and what holds at every point
of it, are statements about these steps.

A task counts a step of the run before it is done, or does not; all else that it does is independent
of the limit of steps, and only the beginning of a call looks at the limit of depth.
-/

namespace ThreeAddress

/-- Something that a run has still to do.  A task that follows the evaluation of an expression finds
its value on top of the values computed so far. -/
inductive RunTask where
  | eval (e : Expr)
  | unary (span : Span) (op : UnaryOp)
  | binary (span : Span) (op : BinaryOp)
  | andThen (right : Expr)
  | orElse (right : Expr)
  | truth
  | call (f : FunctionBody) (site : CallSite) (args : Nat)
  | finish
  | leave
  | exec (s : Stmt)
  | letVar (name : Text)
  | assign (name : Text) (nameSpan : Span)
  | branch (thenBody elseBody : List Stmt)
  | test (span : Span) (cond : Expr) (body : List Stmt)
  | again (span : Span) (cond : Expr) (body : List Stmt)
  | ret
  | print
  | drop

/-- Whether the task leaves a call. -/
def RunTask.isLeave : RunTask → Bool
  | leave => true
  | _ => false

/-- Whether the task neither enters nor leaves a call. -/
def RunTask.isPlain : RunTask → Bool
  | call .. | leave => false
  | _ => true

/-- The tasks of a run and the values computed for them, the newest first. -/
structure RunStack where
  tasks : List RunTask := []
  values : List Value := []

namespace RunStack

/-- The value computed last. -/
def top (k : RunStack) : Value := k.values.headD .void

/-- Adds a value. -/
def give (k : RunStack) (v : Value) : RunStack := { k with values := v :: k.values }

/-- Takes the `n` newest values away. -/
def without (k : RunStack) (n : Nat) : RunStack := { k with values := k.values.drop n }

/-- Puts tasks before all others. -/
def plan (k : RunStack) (ts : List RunTask) : RunStack := { k with tasks := ts ++ k.tasks }

/-- Goes on after a statement: a return skips what is left of the call. -/
def after (k : RunStack) : Signal → RunStack
  | .next => k
  | .returned v => { tasks := k.tasks.dropWhile (!·.isLeave), values := v :: k.values }

end RunStack

/-- Finds a function for a call where at most `depth` calls may be under way. -/
def findCallee (depth : Nat) (span : Span) (name : Text) (nameSpan : Span) (args : Nat) :
    Run FunctionBody := do
  let s ← get
  match s.functions.get? name with
  | none => Run.fail (.undefinedFunction name) nameSpan
  | some f =>
    if f.params.length ≠ args then Run.fail (.arity name f.params.length args) span
    else if depth ≤ s.frames.length then Run.fail (.stackOverflow depth) span
    else return f

/-- Begins to evaluate an expression; one without parts is evaluated at once. -/
def Expr.begin (depth : Nat) (k : RunStack) : Expr → Run RunStack
  | group _ inner => return k.plan [.eval inner]
  | unary span op operand => return k.plan [.eval operand, .unary span op]
  | binary _ .and left right => return k.plan [.eval left, .andThen right]
  | binary _ .or left right => return k.plan [.eval left, .orElse right]
  | binary span op left right => return k.plan [.eval left, .eval right, .binary span op]
  | call span name nameSpan args => do
    let f ← findCallee depth span name nameSpan args.length
    return k.plan (args.map .eval ++ [.call f ⟨name, span⟩ args.length])
  | e => do
    let v ← e.eval {} none
    return k.give v

/-- Begins a statement whose step was counted. -/
def Stmt.begin (k : RunStack) : Stmt → Run RunStack
  | letVar _ name _ value => return k.plan [.eval value, .letVar name]
  | assign _ name nameSpan value => return k.plan [.eval value, .assign name nameSpan]
  | ifElse _ cond thenBody elseBody hasElse =>
    return k.plan [.eval cond, .branch thenBody (if hasElse then elseBody else [])]
  | .while span cond body => return k.plan [.eval cond, .test span cond body]
  | function _ name _ params body => do
    modify fun s => { s with functions := s.functions.insert name ⟨params.map (·.name), body⟩ }
    return k
  | ret _ none => do
    if (← get).frames.isEmpty then return k else return k.after (.returned .void)
  | ret _ (some value) => return k.plan [.eval value, .ret]
  | print _ value => return k.plan [.eval value, .print]
  | expr _ value => return k.plan [.eval value, .drop]
  | unknown span _ => Run.fail (.malformed .statementKind) span
  | missing id => Run.fail (.malformed (.noStatement id)) {}

namespace RunTask

/-- The place of the step that the task counts, if it counts one. -/
def counted? : RunTask → Option Span
  | exec (.missing _) => none
  | exec s => some s.span
  | again span _ _ => some span
  | _ => none

/-- Does the task, where at most `depth` calls may be under way and `k` is what is left. -/
def act (depth : Nat) (k : RunStack) : RunTask → Run RunStack
  | eval e => e.begin depth k
  | unary span op => do
    let v ← unaryValue span op k.top
    return (k.without 1).give v
  | binary span op => do
    let v ← binaryValue span op (k.without 1).top k.top
    return (k.without 2).give v
  | andThen right =>
    if k.top.truthy then return (k.without 1).plan [.eval right, .truth]
    else return (k.without 1).give (.boolean false)
  | orElse right =>
    if k.top.truthy then return (k.without 1).give (.boolean true)
    else return (k.without 1).plan [.eval right, .truth]
  | truth => return (k.without 1).give (.boolean k.top.truthy)
  | call f site args => do
    modify (·.enter ⟨site, .ofList (f.params.zip (k.values.take args).reverse)⟩)
    return (k.without args).plan (f.body.map .exec ++ [.finish, .leave])
  | finish => return k.give .void
  | leave => do
    modify RunState.leave
    return k
  | exec s => s.begin k
  | letVar name => do
    modify (·.define name k.top)
    return k.without 1
  | assign name nameSpan => do
    match (← get).assign name k.top with
    | some s => set s; return k.without 1
    | none => Run.fail (.undefinedVariable name) nameSpan
  | branch thenBody elseBody =>
    return (k.without 1).plan ((if k.top.truthy then thenBody else elseBody).map .exec)
  | test span cond body =>
    if k.top.truthy then return (k.without 1).plan (body.map .exec ++ [.again span cond body])
    else return k.without 1
  | again span cond body => return k.plan [.eval cond, .test span cond body]
  | ret => do
    if (← get).frames.isEmpty then
      Run.printLine ("Return: " ++ k.top.shown)
      return k.without 1
    else return (k.without 1).after (.returned k.top)
  | print => do
    Run.printLine k.top.shown
    return k.without 1
  | drop => return k.without 1

/-- Counts a step if the task counts one, and does the task. -/
def performBy (tick : Span → Run Unit) (depth : Nat) (k : RunStack) (task : RunTask) :
    Run RunStack := do
  if let some span := task.counted? then tick span
  task.act depth k

/-- Does a task within the limits. -/
def perform (limits : RunLimits) (k : RunStack) (task : RunTask) : Run RunStack :=
  task.performBy (Run.tick limits) limits.depth k

/-- Does a task within the limits, where the steps are counted in a word. -/
def performInWord (limits : RunLimits) (k : RunStack) (task : RunTask) : Run RunStack :=
  task.performBy (Run.tickWord limits) limits.depth k

end RunTask

/-- A point of a run: it goes on, or has come to its end. -/
inductive RunPoint where
  | going (k : RunStack) (s : RunState)
  | ended (fault : Option Fault) (s : RunState)

namespace RunPoint

/-- The state of the run. -/
def state : RunPoint → RunState
  | going _ s | ended _ s => s

/-- The point to which a task leads. -/
def ofResult : Except Fault RunStack × RunState → RunPoint
  | (.ok k, s) => going k s
  | (.error f, s) => ended (some f) s

/-- The next point. -/
def nextBy (perform : RunStack → RunTask → Run RunStack) : RunPoint → RunPoint
  | going ⟨[], _⟩ s => ended none s
  | going ⟨task :: tasks, values⟩ s => ofResult ((perform ⟨tasks, values⟩ task).run s)
  | ended f s => ended f s

/-- The next point within the limits. -/
def next (limits : RunLimits) : RunPoint → RunPoint := nextBy (RunTask.perform limits)

/-- The next point within the limits, where the steps are counted in a word. -/
def nextInWord (limits : RunLimits) : RunPoint → RunPoint :=
  nextBy (RunTask.performInWord limits)

/-- The beginning of a run. -/
def start (program : List Stmt) : RunPoint := going (RunStack.plan {} (program.map .exec)) {}

/-- The point after `n` steps. -/
def after (limits : RunLimits) (program : List Stmt) (n : Nat) : RunPoint :=
  (next limits)^[n] (start program)

/-- The point after `n` steps that are counted in a word. -/
def afterInWord (limits : RunLimits) (program : List Stmt) (n : Nat) : RunPoint :=
  (nextInWord limits)^[n] (start program)

end RunPoint

/-! ### What a task does -/

/-- Whether a run ended because of the limit of steps. -/
def FaultCause.isStepLimit : FaultCause → Bool
  | stepLimit _ => true
  | _ => false

/-- The backtrace of a fault lists the calls that are under way in the state. -/
def Fault.Traces (f : Fault) (s : RunState) : Prop := f.backtrace = s.frames.map (·.site)

/-- Between the states no call was entered or left and no step was counted; something may have been
printed. -/
structure RunState.Quiet (s s' : RunState) : Prop where
  frames : s'.frames.length = s.frames.length
  stats : s'.stats = s.stats
  output : s.output <+: s'.output

theorem RunState.Quiet.refl (s : RunState) :
  s.Quiet s
  := ⟨rfl, rfl, List.prefix_refl _⟩

theorem RunState.quiet_define (s : RunState) (name : Text) (v : Value) :
  s.Quiet (s.define name v)
  := by
  rw [define]
  split
  · exact ⟨rfl, rfl, List.prefix_refl _⟩
  · next hframes => exact ⟨by rw [hframes]; rfl, rfl, List.prefix_refl _⟩

theorem RunState.quiet_assign {s s' : RunState} {name : Text} {v : Value}
    (h : s.assign name v = some s') :
  s.Quiet s'
  := by
  rw [assign] at h
  split at h
  · cases h
    exact s.quiet_define name v
  · split at h
    · cases h
      exact ⟨rfl, rfl, List.prefix_refl _⟩
    · cases h

theorem RunState.quiet_printed (s : RunState) (t : Text) :
  s.Quiet { s with printed := s.printed.push t }
  := by
  refine ⟨rfl, rfl, t, ?_⟩
  simp [output]

namespace RunTask

/-- The stack goes on after a task that neither enters nor leaves a call: new tasks stand before the
old ones, or what is left of a call is skipped.  A call is planned only if there is `room`. -/
inductive Continues (room : Prop) (k : RunStack) : RunStack → Prop
  | plan {ts : List RunTask} {values : List Value} (h : ts.all isPlain) :
      Continues room k { tasks := ts ++ k.tasks, values }
  | planCall {ts : List RunTask} {f : FunctionBody} {site : CallSite} {args : Nat}
      {values : List Value} (h : ts.all isPlain) (hroom : room) :
      Continues room k { tasks := ts ++ [call f site args] ++ k.tasks, values }
  | skip {values : List Value} :
      Continues room k { tasks := k.tasks.dropWhile (!·.isLeave), values }

/-- What a task does that neither enters nor leaves a call. -/
structure Acts (depth : Nat) (k : RunStack) (s : RunState) (r : Except Fault RunStack × RunState) :
    Prop where
  quiet : s.Quiet r.2
  fault : ∀ f, r.1 = .error f → f.cause.isStepLimit = false
  traces : ∀ f, r.1 = .error f → f.Traces s
  stack : ∀ k', r.1 = .ok k' → Continues (s.frames.length < depth) k k'

variable {depth : Nat} {k k' : RunStack} {s s' : RunState}

theorem acts_ok (hquiet : s.Quiet s') (h : Continues (s.frames.length < depth) k k') :
  Acts depth k s (.ok k', s')
  := by
  refine ⟨hquiet, ?_, ?_, ?_⟩
  · intro f hf
    cases hf
  · intro f hf
    cases hf
  · intro k'' hk
    cases hk
    exact h

theorem acts_error {f : Fault} (h : f.cause.isStepLimit = false) (htraces : f.Traces s) :
  Acts depth k s (.error f, s)
  := by
  refine ⟨.refl s, ?_, ?_, ?_⟩
  · intro f' hf
    cases hf
    exact h
  · intro f' hf
    cases hf
    exact htraces
  · intro k' hk
    cases hk

theorem Continues.same (room : Prop) (k : RunStack) (values : List Value) :
  Continues room k { k with values }
  := @Continues.plan room k [] values rfl

theorem all_map_exec (ss : List Stmt) :
  (ss.map exec).all isPlain
  := by
  simp [isPlain]

theorem all_map_eval (es : List Expr) :
  (es.map eval).all isPlain
  := by
  simp [isPlain]

/-- Tasks that are planned without a look at the state. -/
theorem acts_plan (k : RunStack) (values : List Value) {ts : List RunTask} (h : ts.all isPlain) :
  Acts depth k s (.ok { tasks := ts ++ k.tasks, values }, s)
  := acts_ok (.refl s) (.plan h)

/-- Values that change without a look at the state. -/
theorem acts_values (k : RunStack) (values : List Value) :
  Acts depth k s (.ok { k with values }, s)
  := acts_ok (.refl s) (.same _ k values)

end RunTask

/-- A computation that only looks at the state, and is not stopped by the limit of steps. -/
def Run.Answers {α : Type} (x : Run α) (s : RunState) : Prop :=
  (∃ a, x.run s = (.ok a, s))
    ∨ ∃ f, x.run s = (.error f, s) ∧ f.cause.isStepLimit = false ∧ f.Traces s

namespace Run

variable {α : Type} {s : RunState}

theorem answers_pure (a : α) :
  Answers (pure a) s
  := .inl ⟨a, rfl⟩

theorem answers_fail {cause : FaultCause} {span : Span} (h : cause.isStepLimit = false) :
  Answers (fail cause span : Run α) s
  := .inr ⟨_, rfl, h, rfl⟩

theorem answers_literalValue (span : Span) (kind : LiteralKind) (text : Text) :
  Answers (literalValue span kind text) s
  := by
  rw [literalValue.eq_def]
  split
  · split
    · apply answers_pure
    · exact answers_fail rfl
  · apply answers_pure
  · apply answers_pure
  · exact answers_fail rfl

theorem answers_unaryValue (span : Span) (op : UnaryOp) (v : Value) :
  Answers (unaryValue span op v) s
  := by
  rw [unaryValue.eq_def]
  split
  · apply answers_pure
  · apply answers_pure
  · exact answers_fail rfl
  · exact answers_fail rfl

theorem answers_binaryValue (span : Span) (op : BinaryOp) (v w : Value) :
  Answers (binaryValue span op v w) s
  := by
  rw [binaryValue]
  split
  · apply answers_pure
  · next e _ =>
    cases e
    all_goals exact answers_fail rfl

/-- An answer becomes part of the stack. -/
theorem Answers.acts {x : Run α} {depth : Nat} {k : RunStack} {g : α → RunStack}
    (h : Answers x s) (hg : ∀ a, RunTask.Continues (s.frames.length < depth) k (g a)) :
  RunTask.Acts depth k s ((x >>= fun a => pure (g a)).run s)
  := by
  rw [Fallible.run_bind]
  obtain ⟨a, ha⟩ | ⟨f, hf, hcause, htraces⟩ := h
  · rw [ha]
    exact RunTask.acts_ok (.refl s) (hg a)
  · rw [hf]
    exact RunTask.acts_error hcause htraces

end Run

/-- A callee is found only if there is room for one more call. -/
theorem findCallee_cases (depth : Nat) (span : Span) (name : Text) (nameSpan : Span) (args : Nat)
    (s : RunState) :
  (∃ f, (findCallee depth span name nameSpan args).run s = (.ok f, s) ∧ s.frames.length < depth)
    ∨ ∃ f, (findCallee depth span name nameSpan args).run s = (.error f, s)
      ∧ f.cause.isStepLimit = false ∧ f.Traces s
  := by
  change (∃ f, (match s.functions.get? name with
      | none => _
      | some f => _ : Run FunctionBody).run s = (.ok f, s) ∧ _)
    ∨ ∃ f, (match s.functions.get? name with
      | none => _
      | some f => _ : Run FunctionBody).run s = (.error f, s) ∧ _
  split
  · exact .inr ⟨_, rfl, rfl, rfl⟩
  · next f _ =>
    split
    · exact .inr ⟨_, rfl, rfl, rfl⟩
    · split
      · exact .inr ⟨_, rfl, rfl, rfl⟩
      · next hroom => exact .inl ⟨f, rfl, by omega⟩

namespace RunTask

variable {depth : Nat} {k : RunStack} {s : RunState}

theorem acts_begin_expr (e : Expr) :
  Acts depth k s ((e.begin depth k).run s)
  := by
  rw [Expr.begin.eq_def]
  split
  · exact acts_plan k _ rfl
  · exact acts_plan k _ rfl
  · exact acts_plan k _ rfl
  · exact acts_plan k _ rfl
  · exact acts_plan k _ rfl
  · next span name nameSpan args =>
    rw [Fallible.run_bind]
    obtain ⟨f, hf, hroom⟩ | ⟨f, hf, hcause, htraces⟩ :=
      findCallee_cases depth span name nameSpan args.length s
    · rw [hf]
      exact acts_ok (.refl s) (.planCall (all_map_eval args) hroom)
    · rw [hf]
      exact acts_error hcause htraces
  · next hgroup hunary hand hor hbinary hcall =>
    refine Run.Answers.acts ?_ fun v => .same _ k _
    cases e with
    | ident span name =>
        rw [Run.Answers, Expr.eval, Fallible.run_get_bind]
        split
        · exact Run.answers_pure _
        · exact Run.answers_fail rfl
    | literal span kind text => exact Run.answers_literalValue span kind text
    | unknown span code => exact Run.answers_fail rfl
    | missing id => exact Run.answers_fail rfl
    | group span inner => cases hgroup _ _ rfl
    | unary span op operand => cases hunary _ _ _ rfl
    | binary span op left right => cases hbinary _ _ _ _ rfl
    | call span name nameSpan args => cases hcall _ _ _ _ rfl

theorem acts_begin_stmt (st : Stmt) :
  Acts depth k s ((st.begin k).run s)
  := by
  cases st with
  | letVar | assign | ifElse | «while» | print | expr => exact acts_plan k _ rfl
  | function => exact acts_ok ⟨rfl, rfl, List.prefix_refl _⟩ (.same _ k _)
  | ret span value =>
      cases value with
      | none =>
          rw [Stmt.begin, Fallible.run_get_bind]
          split
          · exact acts_values k _
          · exact acts_ok (.refl s) .skip
      | some value => exact acts_plan k _ rfl
  | unknown span code => exact acts_error rfl rfl
  | missing id => exact acts_error rfl rfl

/-- What a task does that neither enters nor leaves a call. -/
theorem acts_act {task : RunTask} (h : task.isPlain) :
  Acts depth k s ((task.act depth k).run s)
  := by
  cases task with
  | eval e => apply acts_begin_expr
  | unary span op =>
      exact (Run.answers_unaryValue span op k.top).acts fun v => .same _ k _
  | binary span op =>
      exact (Run.answers_binaryValue span op (k.without 1).top k.top).acts
        fun v => .same _ k _
  | andThen right =>
      rw [act]
      split
      · exact acts_plan k _ rfl
      · exact acts_values k _
  | orElse right =>
      rw [act]
      split
      · exact acts_values k _
      · exact acts_plan k _ rfl
  | truth | finish | drop => exact acts_values k _
  | call | leave => cases h
  | exec st => apply acts_begin_stmt
  | letVar name => exact acts_ok (s.quiet_define name k.top) (.same _ k _)
  | assign name nameSpan =>
      rw [act, Fallible.run_get_bind]
      split
      · next hassign => exact acts_ok (RunState.quiet_assign hassign) (.same _ k _)
      · exact acts_error rfl rfl
  | branch thenBody elseBody => exact acts_plan k _ (all_map_exec _)
  | test span cond body =>
      rw [act]
      split
      · exact acts_plan k _ (by simp [isPlain])
      · exact acts_values k _
  | again span cond body => exact acts_plan k _ rfl
  | ret =>
      rw [act, Fallible.run_get_bind]
      split
      · exact acts_ok (s.quiet_printed _) (.same _ k _)
      · exact acts_ok (.refl s) .skip
  | print => exact acts_ok (s.quiet_printed _) (.same _ k _)

/-- A task that enters a call. -/
theorem run_act_call (f : FunctionBody) (site : CallSite) (args : Nat) :
  ((call f site args).act depth k).run s
    = (.ok ((k.without args).plan (f.body.map .exec ++ [.finish, .leave])),
      s.enter ⟨site, .ofList (f.params.zip (k.values.take args).reverse)⟩)
  := rfl

/-- A task that leaves a call. -/
theorem run_act_leave :
  (leave.act depth k).run s = (.ok k, s.leave)
  := rfl

theorem isPlain_or (task : RunTask) :
  task.isPlain ∨ (∃ f site args, task = call f site args) ∨ task = leave
  := by
  cases task with
  | call f site args => exact .inr (.inl ⟨f, site, args, rfl⟩)
  | leave => exact .inr (.inr rfl)
  | _ => exact .inl rfl

/-- No task but the count before it has to do with the number of steps. -/
theorem steps_act (task : RunTask) (depth : Nat) (k : RunStack) (s : RunState) :
  ((task.act depth k).run s).2.stats.steps = s.stats.steps
    ∧ ∀ f, ((task.act depth k).run s).1 = .error f → f.cause.isStepLimit = false
  := by
  obtain h | ⟨f, site, args, rfl⟩ | rfl := task.isPlain_or
  · have hacts : Acts depth k s _ := acts_act h
    exact ⟨congrArg (·.steps) hacts.quiet.stats, hacts.fault⟩
  · exact ⟨rfl, fun _ h => nomatch h⟩
  · exact ⟨rfl, fun _ h => nomatch h⟩

/-- A fault of a task traces the calls under way. -/
theorem traces_act (task : RunTask) (depth : Nat) (k : RunStack) (s : RunState) :
  ∀ f, ((task.act depth k).run s).1 = .error f → f.Traces s
  := by
  obtain h | ⟨f, site, args, rfl⟩ | rfl := task.isPlain_or
  · have hacts : Acts depth k s _ := acts_act h
    exact hacts.traces
  · exact fun _ h => nomatch h
  · exact fun _ h => nomatch h

/-- What was printed stays printed. -/
theorem output_act (task : RunTask) (depth : Nat) (k : RunStack) (s : RunState) :
  s.output <+: ((task.act depth k).run s).2.output
  := by
  obtain h | ⟨f, site, args, rfl⟩ | rfl := task.isPlain_or
  · have hacts : Acts depth k s _ := acts_act h
    exact hacts.quiet.output
  · exact List.prefix_refl _
  · exact List.prefix_refl _

end RunTask

/-! ### What a step does -/

/-- One more step is counted. -/
def RunState.counted (s : RunState) : RunState :=
  { s with stats := { s.stats with steps := s.stats.steps + 1 } }

/-- A step was counted within the limit, or none was. -/
def RunState.Counts (limits : RunLimits) (s s' : RunState) : Prop :=
  s' = s ∨ s' = s.counted ∧ s.stats.steps + 1 ≤ limits.steps

namespace RunState.Counts

variable {limits : RunLimits} {s s' : RunState}

theorem frames (h : s.Counts limits s') :
  s'.frames = s.frames
  := by
  obtain rfl | ⟨rfl, -⟩ := h
  · rfl
  · rfl

theorem output (h : s.Counts limits s') :
  s'.output = s.output
  := by
  obtain rfl | ⟨rfl, -⟩ := h
  · rfl
  · rfl

theorem steps_le (h : s.Counts limits s') :
  s.stats.steps ≤ s'.stats.steps
  := by
  obtain rfl | ⟨rfl, -⟩ := h
  · exact Nat.le_refl _
  · exact Nat.le_succ _

theorem within (h : s.Counts limits s') (hs : s.stats.steps ≤ limits.steps) :
  s'.stats.steps ≤ limits.steps
  := by
  obtain rfl | ⟨rfl, hle⟩ := h
  · exact hs
  · exact hle

end RunState.Counts

theorem Run.run_count (exceeds : RunStats → Bool) (limits : RunLimits) (span : Span)
    (s : RunState) :
  (count exceeds limits span).run s
    = if exceeds s.counted.stats then
        (.error ⟨.stepLimit limits.steps, span, s.frames.map (·.site)⟩, s.counted)
      else if limits.cancelled && (s.stats.steps + 1) % cancelInterval == 0 then
        (.error ⟨.cancelled, span, s.frames.map (·.site)⟩, s.counted)
      else (.ok (), s.counted)
  := by
  rw [count, Fallible.run_modify_bind, Fallible.run_get_bind]
  change (if exceeds s.counted.stats then _ else _ : Run Unit).run s.counted = _
  split
  · rfl
  · change (if limits.cancelled && (s.stats.steps + 1) % cancelInterval == 0 then _ else _ :
      Run Unit).run s.counted = _
    split
    · rfl
    · rfl

theorem Run.run_tick (limits : RunLimits) (span : Span) (s : RunState) :
  (tick limits span).run s
    = if limits.steps < s.stats.steps + 1 then
        (.error ⟨.stepLimit limits.steps, span, s.frames.map (·.site)⟩, s.counted)
      else if limits.cancelled && (s.stats.steps + 1) % cancelInterval == 0 then
        (.error ⟨.cancelled, span, s.frames.map (·.site)⟩, s.counted)
      else (.ok (), s.counted)
  := by
  rw [tick, run_count]
  exact if_congr decide_eq_true_iff rfl rfl

theorem Run.counted_of_tick {limits : RunLimits} {span : Span} {s s' : RunState} {u : Unit}
    (h : (tick limits span).run s = (.ok u, s')) :
  s' = s.counted ∧ s'.stats.steps ≤ limits.steps
  := by
  rw [run_tick] at h
  split_ifs at h with hlimit hcancel
  · cases h
  · cases h
  · cases h
    exact ⟨rfl, Nat.le_of_not_lt hlimit⟩

namespace RunTask

theorem perform_of_none {task : RunTask} (h : task.counted? = none) (limits : RunLimits)
    (k : RunStack) :
  task.perform limits k = task.act limits.depth k
  := by
  rw [perform, performBy, h]

theorem perform_of_some {task : RunTask} {span : Span} (h : task.counted? = some span)
    (limits : RunLimits) (k : RunStack) :
  task.perform limits k = (do
    Run.tick limits span
    task.act limits.depth k)
  := by
  rw [perform, performBy, h]

/-- The run ends before a task because of the count: the limit is reached, or it was cancelled. -/
inductive Refuses (limits : RunLimits) (s : RunState) : FaultCause → Prop
  | limit (h : limits.steps < s.stats.steps + 1) : Refuses limits s (.stepLimit limits.steps)
  | cancel (h : s.stats.steps + 1 ≤ limits.steps) (hcancel : limits.cancelled) :
      Refuses limits s .cancelled

/-- A step is refused, or the task is done after its step was counted, if it counts one. -/
theorem perform_cases (limits : RunLimits) (k : RunStack) (task : RunTask) (s : RunState) :
  (∃ f, (task.perform limits k).run s = (.error f, s.counted) ∧ Refuses limits s f.cause
      ∧ f.Traces s)
    ∨ ∃ s', (task.perform limits k).run s = (task.act limits.depth k).run s' ∧ s.Counts limits s'
  := by
  cases hcounted : task.counted? with
  | none =>
      rw [perform_of_none hcounted]
      exact .inr ⟨s, rfl, .inl rfl⟩
  | some span =>
      rw [perform_of_some hcounted, Fallible.run_bind, Run.run_tick]
      split_ifs with hlimit hcancel
      · exact .inl ⟨_, rfl, .limit hlimit, rfl⟩
      · exact .inl ⟨_, rfl, .cancel (by omega) (Bool.and_eq_true_iff.mp hcancel).1, rfl⟩
      · exact .inr ⟨s.counted, rfl, .inr ⟨rfl, by omega⟩⟩

end RunTask

namespace RunPoint

variable {limits : RunLimits} {p q r : RunPoint}

theorem state_ofResult (r : Except Fault RunStack × RunState) :
  (ofResult r).state = r.2
  := by
  obtain ⟨f | k, s⟩ := r
  · rfl
  · rfl

/-- What one step does: a run that ended stays where it is, and one without tasks ends; otherwise a
task is refused, or done after its step was counted. -/
inductive Moves (limits : RunLimits) : RunPoint → RunPoint → Prop
  | stay (fault : Option Fault) (s : RunState) : Moves limits (ended fault s) (ended fault s)
  | finish (values : List Value) (s : RunState) :
      Moves limits (going ⟨[], values⟩ s) (ended none s)
  | refuse {task tasks values s f} (hrefuses : RunTask.Refuses limits s f.cause)
      (htraces : f.Traces s) :
      Moves limits (going ⟨task :: tasks, values⟩ s) (ended (some f) s.counted)
  | act {task tasks values s s'} (hcounts : s.Counts limits s') :
      Moves limits (going ⟨task :: tasks, values⟩ s)
        (ofResult ((task.act limits.depth ⟨tasks, values⟩).run s'))

theorem moves_next (limits : RunLimits) (p : RunPoint) :
  p.Moves limits (p.next limits)
  := by
  cases p with
  | ended fault s => exact .stay fault s
  | going k s =>
      obtain ⟨_ | ⟨task, tasks⟩, values⟩ := k
      · exact .finish values s
      · have hnext : (going ⟨task :: tasks, values⟩ s).next limits
            = ofResult ((task.perform limits ⟨tasks, values⟩).run s) := rfl
        rw [hnext]
        obtain ⟨f, hf, hrefuses, htraces⟩ | ⟨s', hs', hcounts⟩ :=
          task.perform_cases limits ⟨tasks, values⟩ s
        · rw [hf]
          exact .refuse hrefuses htraces
        · rw [hs']
          exact .act hcounts

/-- The limit of steps is kept, and passed by one exactly at its own fault. -/
def WithinSteps (limits : RunLimits) : RunPoint → Prop
  | going _ s => s.stats.steps ≤ limits.steps
  | ended fault s =>
    s.stats.steps ≤ limits.steps + 1
      ∧ (s.stats.steps = limits.steps + 1 ↔ ∃ f ∈ fault, f.cause.isStepLimit)

/-- A run that ends for another reason than the limit of steps keeps the limit. -/
theorem withinSteps_ended {fault : Option Fault} {s : RunState} (h : s.stats.steps ≤ limits.steps)
    (hfault : ∀ f ∈ fault, f.cause.isStepLimit = false) :
  (ended fault s).WithinSteps limits
  := by
  refine ⟨by omega, ?_, ?_⟩
  · intro hsteps
    omega
  · rintro ⟨f, hf, hcause⟩
    rw [hfault f hf] at hcause
    cases hcause

/-- A run that ends because a step is refused. -/
theorem withinSteps_refused {f : Fault} {s : RunState} (h : s.stats.steps ≤ limits.steps)
    (hrefuses : RunTask.Refuses limits s f.cause) :
  (ended (some f) s.counted).WithinSteps limits
  := by
  obtain ⟨cause, span, backtrace⟩ := f
  cases hrefuses with
  | limit hlimit =>
      have hnow : s.counted.stats.steps = limits.steps + 1 := by
        change s.stats.steps + 1 = _
        omega
      exact ⟨by omega, fun _ => ⟨_, rfl, rfl⟩, fun _ => hnow⟩
  | cancel hle => exact withinSteps_ended hle (by simp [FaultCause.isStepLimit])

/-- Steps are counted only upwards. -/
theorem Moves.steps_le (h : p.Moves limits q) :
  p.state.stats.steps ≤ q.state.stats.steps
  := by
  cases h with
  | stay | finish => exact Nat.le_refl _
  | refuse => exact Nat.le_succ _
  | @act task tasks values s s' hcounts =>
      rw [state_ofResult, (task.steps_act limits.depth ⟨tasks, values⟩ s').1]
      exact hcounts.steps_le

/-- A step keeps the limit of steps. -/
theorem Moves.withinSteps (h : p.Moves limits q) (hp : p.WithinSteps limits) :
  q.WithinSteps limits
  := by
  cases h with
  | stay => exact hp
  | finish => exact withinSteps_ended hp (by simp)
  | refuse hrefuses => exact withinSteps_refused hp hrefuses
  | @act task tasks values s s' hcounts =>
      have hle := hcounts.within hp
      obtain ⟨hsame, hfault⟩ := task.steps_act limits.depth ⟨tasks, values⟩ s'
      rw [← hsame] at hle
      rcases hact : (task.act limits.depth ⟨tasks, values⟩).run s' with ⟨f | k, t⟩
      · rw [hact] at hle hfault
        apply withinSteps_ended hle
        rintro f' ⟨⟩
        exact hfault f rfl
      · rw [hact] at hle
        exact hle

/-- A fault that ends a run traces the calls under way at the point before. -/
theorem Moves.traces {k : RunStack} {s : RunState} (h : (going k s).Moves limits q) {f : Fault}
    {t : RunState} (hq : q = ended (some f) t) :
  f.Traces s
  := by
  cases h with
  | finish => cases hq
  | refuse _ htraces =>
      cases hq
      exact htraces
  | @act task tasks values _ s' hcounts =>
      have htraces := task.traces_act limits.depth ⟨tasks, values⟩ s'
      rcases hact : (task.act limits.depth ⟨tasks, values⟩).run s' with ⟨f' | k, t'⟩
      · rw [hact] at hq htraces
        cases hq
        rw [Fault.Traces, ← hcounts.frames]
        exact htraces f rfl
      · rw [hact] at hq
        cases hq

/-- One point leads to another in some number of steps. -/
def Leads (limits : RunLimits) (p q : RunPoint) : Prop := ∃ n, (next limits)^[n] p = q

theorem Leads.refl (p : RunPoint) :
  p.Leads limits p
  := ⟨0, rfl⟩

theorem Leads.trans (h : p.Leads limits q) (h' : q.Leads limits r) :
  p.Leads limits r
  := by
  obtain ⟨n, rfl⟩ := h
  obtain ⟨m, rfl⟩ := h'
  use m + n
  rw [Function.iterate_add_apply]

theorem Leads.step (h : p.next limits = q) (h' : q.Leads limits r) :
  p.Leads limits r
  := Leads.trans ⟨1, h⟩ h'

/-- What every step keeps holds wherever a run leads. -/
theorem Leads.keeps (kept : RunPoint → Prop) (hkept : ∀ p, kept p → kept (p.next limits))
    (h : p.Leads limits q) (hp : kept p) :
  kept q
  := by
  obtain ⟨n, rfl⟩ := h
  induction n generalizing p with
  | zero => exact hp
  | succ n ih =>
      rw [Function.iterate_succ_apply]
      exact ih (hkept p hp)

theorem Leads.steps_le (h : p.Leads limits q) :
  p.state.stats.steps ≤ q.state.stats.steps
  := h.keeps (fun q => p.state.stats.steps ≤ q.state.stats.steps)
    (fun q hq => Nat.le_trans hq (moves_next limits q).steps_le) (Nat.le_refl _)

theorem Leads.withinSteps (h : p.Leads limits q) (hp : p.WithinSteps limits) :
  q.WithinSteps limits ∧ p.state.stats.steps ≤ q.state.stats.steps
  := ⟨h.keeps (WithinSteps limits) (fun q => (moves_next limits q).withinSteps) hp, h.steps_le⟩

end RunPoint

end ThreeAddress
