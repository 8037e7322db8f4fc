import Mathlib.Data.List.Perm.Basic
import ThreeAddress.Proofs.Fallible
import ThreeAddress.Proofs.Code.Fragments
import ThreeAddress.Run.Eval

/-!
# The order of evaluation

Evaluating an expression reads variables and calls functions.  `Expr.events` lists what it reads and
calls from left to right, as if no operand were ever skipped.  `Expr.evalLogged` is the evaluator
with a log: the log tells what was read and called, and which right operands of lazy operators were
skipped.

The code of an expression has neither jumps nor labels, so executing it in order executes every
instruction once.  It makes every call of the expression, in the order of evaluation, also those
that the evaluator skips.  A variable that is an operand is read by the instruction of its operator
or call, hence after the calls in the operands to its right.
-/

namespace ThreeAddress

/-- What an evaluation does: it reads a variable, or calls a function. -/
inductive EvalEvent where
  | read (name : Text)
  | call (name : Text)
deriving DecidableEq

namespace EvalEvent

/-- The calls among events, in order. -/
def calls : List EvalEvent → List Text
  | [] => []
  | read _ :: rest => calls rest
  | call name :: rest => name :: calls rest

/-- The variables that are read, each with the number of calls made before it, if `made` calls were
made at first. -/
def readTimes (made : Nat) : List EvalEvent → List (Text × Nat)
  | [] => []
  | read name :: rest => (name, made) :: readTimes made rest
  | call _ :: rest => readTimes (made + 1) rest

@[simp]
theorem calls_append (t t' : List EvalEvent) :
  calls (t ++ t') = calls t ++ calls t'
  := by
  fun_induction calls t with
  | case1 => rfl
  | case2 name rest ih => apply ih
  | case3 name rest ih => rw [List.cons_append, calls, ih, List.cons_append]

theorem readTimes_append (made : Nat) (t t' : List EvalEvent) :
  readTimes made (t ++ t') = readTimes made t ++ readTimes (made + (calls t).length) t'
  := by
  fun_induction readTimes made t with
  | case1 made => rfl
  | case2 made name rest ih => rw [List.cons_append, readTimes, ih, List.cons_append, calls]
  | case3 made name rest ih =>
      rw [List.cons_append, readTimes, ih, calls, List.length_cons, Nat.add_assoc, Nat.add_comm 1]

/-- Moving a read to the front changes the order of the list of reads only. -/
theorem readTimes_middle (made : Nat) (t t' : List EvalEvent) (name : Text) :
  (readTimes made (t ++ read name :: t')).Perm
    ((name, made + (calls t).length) :: readTimes made (t ++ t'))
  := by
  rw [readTimes_append, readTimes_append, readTimes]
  apply List.perm_middle

end EvalEvent

open EvalEvent

/-! ### Expressions -/

namespace Expr

mutual

/-- What an expression reads and calls, from left to right, if no operand is skipped. -/
def events : Expr → List EvalEvent
  | ident _ name => [.read name]
  | group _ inner => inner.events
  | unary _ _ operand => operand.events
  | binary _ _ left right => left.events ++ right.events
  | call _ name _ args => eventsOfAll args ++ [.call name]
  | _ => []

/-- What expressions read and call, one after another. -/
def eventsOfAll : List Expr → List EvalEvent
  | [] => []
  | e :: rest => e.events ++ eventsOfAll rest

end

/-- The number of calls of an expression. -/
def callCount (e : Expr) : Nat := (calls e.events).length

/-- The number of calls of expressions. -/
def callCountOfAll (es : List Expr) : Nat := (calls (eventsOfAll es)).length

/-- Whether an expression is a variable, perhaps in parentheses. -/
def isVariable : Expr → Bool
  | ident .. => true
  | group _ inner => inner.isVariable
  | _ => false

mutual

/-- The right operands of lazy operators in an expression, each with its operator. -/
def lazyOperands : Expr → List (BinaryOp × Expr)
  | group _ inner => inner.lazyOperands
  | unary _ _ operand => operand.lazyOperands
  | binary _ .and left right => (.and, right) :: (left.lazyOperands ++ right.lazyOperands)
  | binary _ .or left right => (.or, right) :: (left.lazyOperands ++ right.lazyOperands)
  | binary _ _ left right => left.lazyOperands ++ right.lazyOperands
  | call _ _ _ args => lazyOperandsOfAll args
  | _ => []

/-- The right operands of lazy operators in expressions. -/
def lazyOperandsOfAll : List Expr → List (BinaryOp × Expr)
  | [] => []
  | e :: rest => e.lazyOperands ++ lazyOperandsOfAll rest

end

end Expr

/-- A variable that is read in an expression: the calls before it in the order of evaluation, and
the calls in the operands to its right, if it is an operand of an operator or call itself. -/
structure VariableRead where
  name : Text
  before : Nat
  later : Nat
deriving DecidableEq

namespace VariableRead

/-- The read, delayed by further calls to its right. -/
def delay (n : Nat) (v : VariableRead) : VariableRead := { v with later := v.later + n }

/-- When the read happens in the order of evaluation. -/
def evalTime (v : VariableRead) : Text × Nat := (v.name, v.before)

/-- When the read happens in the code. -/
def codeTime (v : VariableRead) : Text × Nat := (v.name, v.before + v.later)

end VariableRead

namespace Expr

/-- The reads of an operand with `later` calls to its right.  Only a variable waits for them: what
else is read in the operand is read by the operand's own code. -/
def delayed (e : Expr) (later : Nat) (reads : List VariableRead) : List VariableRead :=
  if e.isVariable then reads.map (·.delay later) else reads

mutual

/-- The variables that an expression reads, from left to right, if `made` calls were made before. -/
def reads (made : Nat) : Expr → List VariableRead
  | ident _ name => [⟨name, made, 0⟩]
  | group _ inner => inner.reads made
  | unary _ _ operand => operand.reads made
  | binary _ _ left right =>
    left.delayed right.callCount (left.reads made) ++ right.reads (made + left.callCount)
  | call _ _ _ args => readsOfAll made args
  | _ => []

/-- The variables that operands of one operator or call read. -/
def readsOfAll (made : Nat) : List Expr → List VariableRead
  | [] => []
  | e :: rest =>
    e.delayed (callCountOfAll rest) (e.reads made) ++ readsOfAll (made + e.callCount) rest

end

@[simp]
theorem delayed_zero (e : Expr) (reads : List VariableRead) :
  e.delayed 0 reads = reads
  := by
  rw [delayed]
  split
  · apply List.map_id
  · rfl

theorem map_evalTime_delayed (e : Expr) (later : Nat) (reads : List VariableRead) :
  (e.delayed later reads).map VariableRead.evalTime = reads.map VariableRead.evalTime
  := by
  rw [delayed]
  split
  · rw [List.map_map]
    rfl
  · rfl

theorem readsOfAll_singleton (made : Nat) (e : Expr) :
  readsOfAll made [e] = e.reads made
  := by
  simp [readsOfAll, callCountOfAll, eventsOfAll, calls]

theorem readsOfAll_pair (made : Nat) (l r : Expr) :
  readsOfAll made [l, r] = l.delayed r.callCount (l.reads made) ++ r.reads (made + l.callCount)
  := by
  rw [readsOfAll, readsOfAll_singleton]
  simp [callCountOfAll, eventsOfAll, callCount]

mutual

/-- In the order of evaluation every variable is read after the calls before it. -/
theorem readTimes_events (e : Expr) (made : Nat) :
  readTimes made e.events = (e.reads made).map VariableRead.evalTime
  := by
  cases e with
  | ident | literal | unknown | missing => rfl
  | group span inner => apply readTimes_events inner
  | unary span op operand => apply readTimes_events operand
  | binary span op left right =>
      rw [events, readTimes_append, readTimes_events left, readTimes_events right, reads,
        List.map_append, map_evalTime_delayed, callCount]
  | call span name nameSpan args =>
      rw [events, readTimes_append, readTimes_eventsOfAll args, reads, readTimes, readTimes,
        List.append_nil]

theorem readTimes_eventsOfAll (es : List Expr) (made : Nat) :
  readTimes made (eventsOfAll es) = (readsOfAll made es).map VariableRead.evalTime
  := by
  cases es with
  | nil => rfl
  | cons e rest =>
      rw [eventsOfAll, readTimes_append, readTimes_events e, readTimes_eventsOfAll rest, readsOfAll,
        List.map_append, map_evalTime_delayed, callCount]

end

end Expr

/-! ### The evaluator with a log -/

/-- An entry of the log: something was done, or a lazy operator skipped its right operand because of
the value of its left one. -/
inductive LogEntry where
  | done (event : EvalEvent)
  | skipped (op : BinaryOp) (left : Value) (right : Expr)

namespace LogEntry

/-- What an entry accounts for in the order of evaluation. -/
def events : LogEntry → List EvalEvent
  | done event => [event]
  | skipped _ _ right => right.events

/-- What an entry did. -/
def performed : LogEntry → List EvalEvent
  | done event => [event]
  | skipped .. => []

end LogEntry

/-- Whether the left operand of an operator decides the result. -/
def BinaryOp.decides : BinaryOp → Value → Bool
  | .and, left => !left.truthy
  | .or, left => left.truthy
  | _, _ => false

/-- A step of a run with a log. -/
abbrev LoggedRun := ExceptT Fault (StateM (RunState × List LogEntry))

namespace LoggedRun

/-- A step that logs nothing. -/
def lift {α : Type} (m : Run α) : LoggedRun α := fun s =>
  let (a, r) := m.run s.1
  (a, (r, s.2))

/-- Adds to the log. -/
def log (entry : LogEntry) : LoggedRun Unit := modify fun s => (s.1, s.2 ++ [entry])

end LoggedRun

namespace Expr

mutual

/-- Evaluates an expression and logs what it does. -/
def evalLogged (limits : RunLimits) (deeper : Deeper) : Expr → LoggedRun Value
  | literal span kind text => LoggedRun.lift (literalValue span kind text)
  | ident span name => do
    LoggedRun.log (.done (.read name))
    LoggedRun.lift ((ident span name).eval limits deeper)
  | group _ inner => inner.evalLogged limits deeper
  | unary span op operand => do
    let v ← operand.evalLogged limits deeper
    LoggedRun.lift (unaryValue span op v)
  | binary _ .and left right => do
    let l ← left.evalLogged limits deeper
    if l.truthy then
      let r ← right.evalLogged limits deeper
      return .boolean r.truthy
    else
      LoggedRun.log (.skipped .and l right)
      return .boolean false
  | binary _ .or left right => do
    let l ← left.evalLogged limits deeper
    if l.truthy then
      LoggedRun.log (.skipped .or l right)
      return .boolean true
    else
      let r ← right.evalLogged limits deeper
      return .boolean r.truthy
  | binary span op left right => do
    let l ← left.evalLogged limits deeper
    let r ← right.evalLogged limits deeper
    LoggedRun.lift (binaryValue span op l r)
  | call span name nameSpan args => do
    let (f, run) ← LoggedRun.lift (findFunction limits deeper span name nameSpan args.length)
    let vs ← evalAllLogged limits deeper args
    LoggedRun.log (.done (.call name))
    LoggedRun.lift (callFunction run f ⟨name, span⟩ vs)
  | unknown span code => LoggedRun.lift ((unknown span code).eval limits deeper)
  | missing id => LoggedRun.lift ((missing id).eval limits deeper)

/-- Evaluates arguments from left to right and logs what they do. -/
def evalAllLogged (limits : RunLimits) (deeper : Deeper) : List Expr → LoggedRun (List Value)
  | [] => return []
  | e :: rest => do
    let v ← e.evalLogged limits deeper
    let vs ← evalAllLogged limits deeper rest
    return v :: vs

end

end Expr

/-- The entries `new` of a log account for `events`, which they do but for the operands that the
lazy operators of `operands` skip. -/
structure LogEntry.Account (operands : List (BinaryOp × Expr)) (events : List EvalEvent)
    (new : List LogEntry) : Prop where
  events : new.flatMap LogEntry.events = events
  skips : ∀ op left right, .skipped op left right ∈ new → op.decides left ∧ (op, right) ∈ operands

namespace LogEntry.Account

variable {ops ops' : List (BinaryOp × Expr)} {t t' : List EvalEvent} {new new' : List LogEntry}

theorem nil :
  Account ops [] []
  := ⟨rfl, by simp⟩

theorem mono (h : Account ops t new) (hops : ops ⊆ ops') :
  Account ops' t new
  := by
  use h.events
  intro op left right hmem
  obtain ⟨hdecides, hop⟩ := h.skips op left right hmem
  use hdecides, hops hop

theorem append (h : Account ops t new) (h' : Account ops t' new') :
  Account ops (t ++ t') (new ++ new')
  := by
  constructor
  · rw [List.flatMap_append, h.events, h'.events]
  · intro op left right hmem
    obtain hmem | hmem := List.mem_append.mp hmem
    · apply h.skips op left right hmem
    · apply h'.skips op left right hmem

theorem done (event : EvalEvent) :
  Account ops [event] [.done event]
  := ⟨rfl, by simp⟩

theorem skipped {op : BinaryOp} {left : Value} {right : Expr} (hdecides : op.decides left)
    (hop : (op, right) ∈ ops) :
  Account ops right.events [.skipped op left right]
  := by
  constructor
  · apply List.append_nil
  · intro op' left' right' hmem
    obtain ⟨rfl, rfl, rfl⟩ := LogEntry.skipped.inj (List.mem_singleton.mp hmem)
    use hdecides, hop

end LogEntry.Account

/-- The logged computation `m'` does what `m` does, and its new entries account for `events`, or for
the first of them if it ends in a fault. -/
def LoggedRun.Logs {α : Type} (m' : LoggedRun α) (m : Run α) (operands : List (BinaryOp × Expr))
    (events : List EvalEvent) : Prop :=
  ∀ r log, ∃ new, m'.run (r, log) = ((m.run r).1, ((m.run r).2, log ++ new))
    ∧ ∃ first rest, events = first ++ rest ∧ LogEntry.Account operands first new
      ∧ ((m.run r).1.isOk → rest = [])

namespace LoggedRun.Logs

open Fallible

variable {α β : Type} {m' : LoggedRun α} {m : Run α} {ops ops' : List (BinaryOp × Expr)}
  {t t' : List EvalEvent}

theorem mono (h : Logs m' m ops t) (hops : ops ⊆ ops') :
  Logs m' m ops' t
  := by
  intro r log
  obtain ⟨new, hrun, first, rest, ht, hnew, hok⟩ := h r log
  use new, hrun, first, rest, ht, hnew.mono hops

theorem lift (m : Run α) :
  Logs (LoggedRun.lift m) m ops []
  := by
  intro r log
  use []
  constructor
  · rw [List.append_nil]
    rfl
  · use [], [], rfl, .nil
    intro _
    rfl

theorem pure (a : α) :
  Logs (Pure.pure a) (Pure.pure a) ops []
  := lift (Pure.pure a)

/-- An entry of the log stands for a computation that does nothing. -/
theorem log {entry : LogEntry} (h : LogEntry.Account ops t [entry]) :
  Logs (LoggedRun.log entry) (Pure.pure ()) ops t
  := by
  intro r log
  use [entry]
  constructor
  · rfl
  · use t, [], (List.append_nil t).symm, h
    intro _
    rfl

/-- A sequence logs the entries of its parts, but none of the second part if the first one fails. -/
theorem bind (h : Logs m' m ops t) {f' : α → LoggedRun β} {f : α → Run β}
    (hf : ∀ a, Logs (f' a) (f a) ops t') :
  Logs (m' >>= f') (m >>= f) ops (t ++ t')
  := by
  intro r log
  obtain ⟨new, hrun, first, rest, rfl, hnew, hok⟩ := h r log
  rw [run_bind, run_bind, hrun]
  rcases hm : m.run r with ⟨e | a, r₁⟩
  · use new, rfl, first, rest ++ t', (by rw [List.append_assoc]), hnew
    intro h
    cases h
  · rw [hm] at hok
    obtain rfl := hok rfl
    obtain ⟨new', hrun', first', rest', rfl, hnew', hok'⟩ := hf a r₁ (log ++ new)
    use new ++ new'
    constructor
    · rw [← List.append_assoc]
      apply hrun'
    · use first ++ first', rest', by simp, hnew.append hnew', hok'

/-- Logging before a computation. -/
theorem log_bind {entry : LogEntry} (h : LogEntry.Account ops t [entry]) (h' : Logs m' m ops t') :
  Logs (do LoggedRun.log entry; m') m ops (t ++ t')
  := (log h).bind fun _ => h'

end LoggedRun.Logs

namespace Expr

open LoggedRun

variable {limits : RunLimits} {deeper : Deeper}

mutual

/-- The evaluator with a log does what the evaluator does, and its log accounts for what the
expression reads and calls. -/
theorem logs_evalLogged (e : Expr) :
  Logs (e.evalLogged limits deeper) (e.eval limits deeper) e.lazyOperands e.events
  := by
  cases e with
  | literal span kind text =>
      rw [evalLogged, eval]
      apply Logs.lift
  | ident span name =>
      rw [evalLogged]
      apply Logs.log_bind (.done _) (.lift _)
  | group span inner =>
      rw [evalLogged, eval]
      apply logs_evalLogged inner
  | unary span op operand =>
      rw [evalLogged, eval, events, ← List.append_nil operand.events]
      apply (logs_evalLogged operand).bind
      intro v
      apply Logs.lift
  | binary span op left right =>
      have hleft : Logs (left.evalLogged limits deeper) (left.eval limits deeper)
          (binary span op left right).lazyOperands left.events := by
        apply (logs_evalLogged left).mono
        cases op <;> simp [lazyOperands]
      have hright : Logs (right.evalLogged limits deeper) (right.eval limits deeper)
          (binary span op left right).lazyOperands right.events := by
        apply (logs_evalLogged right).mono
        cases op <;> simp [lazyOperands]
      by_cases hand : op = .and
      · subst hand
        rw [evalLogged, eval]
        apply hleft.bind
        intro l
        split
        · rw [← List.append_nil right.events]
          apply hright.bind
          intro r
          apply Logs.pure
        · rename_i hl
          have hdecides : BinaryOp.decides .and l := by simp [BinaryOp.decides, hl]
          rw [← List.append_nil right.events]
          apply Logs.log_bind (.skipped hdecides _) (.pure _)
          simp [lazyOperands]
      · by_cases hor : op = .or
        · subst hor
          rw [evalLogged, eval]
          apply hleft.bind
          intro l
          split
          · rename_i hl
            have hdecides : BinaryOp.decides .or l := hl
            rw [← List.append_nil right.events]
            apply Logs.log_bind (.skipped hdecides _) (.pure _)
            simp [lazyOperands]
          · rw [← List.append_nil right.events]
            apply hright.bind
            intro r
            apply Logs.pure
        · rw [evalLogged.eq_7 _ _ _ _ _ _ hand hor, eval.eq_7 _ _ _ _ _ _ hand hor, events]
          apply hleft.bind
          intro l
          rw [← List.append_nil right.events]
          apply hright.bind
          intro r
          apply Logs.lift
  | call span name nameSpan args =>
      rw [evalLogged, eval, events, lazyOperands, ← List.nil_append (eventsOfAll args ++ _)]
      apply (Logs.lift _).bind
      intro found
      apply (logs_evalAllLogged args).bind
      intro vs
      apply Logs.log_bind (.done _) (.lift _)
  | unknown | missing =>
      rw [evalLogged]
      apply Logs.lift

theorem logs_evalAllLogged (es : List Expr) :
  Logs (evalAllLogged limits deeper es) (evalAll limits deeper es) (lazyOperandsOfAll es)
    (eventsOfAll es)
  := by
  cases es with
  | nil =>
      rw [evalAllLogged, evalAll]
      apply Logs.pure
  | cons e rest =>
      rw [evalAllLogged, evalAll, eventsOfAll]
      apply ((logs_evalLogged e).mono (by simp [lazyOperandsOfAll])).bind
      intro v
      rw [← List.append_nil (eventsOfAll rest)]
      apply ((logs_evalAllLogged rest).mono (by simp [lazyOperandsOfAll])).bind
      intro vs
      apply Logs.pure

end

end Expr

/-! ### The code of expressions -/

/-- What an operand reads. -/
def Operand.events (x : Operand) : List EvalEvent := if x.isVariable then [.read x.text] else []

/-- What an instruction of an expression reads and then calls. -/
def Instr.events (i : Instr) : List EvalEvent :=
  i.uses.flatMap Operand.events ++ if i.kind = .call then [.call i.func] else []

/-- What executing instructions in order reads and calls. -/
def Program.events (c : Program) : List EvalEvent := c.flatMap Instr.events

@[simp]
theorem Program.events_append (c c' : Program) :
  Program.events (c ++ c') = c.events ++ c'.events
  := List.flatMap_append

theorem Operand.calls_events (x : Operand) :
  calls x.events = []
  := by
  rw [Operand.events]
  split
  · rfl
  · rfl

theorem Operand.calls_flatMap_events (xs : List Operand) :
  calls (xs.flatMap Operand.events) = []
  := by
  induction xs with
  | nil => rfl
  | cons x xs ih => rw [List.flatMap_cons, calls_append, x.calls_events, ih, List.append_nil]

/-- The operation of an operator reads its operands. -/
theorem Program.events_concat_of_ne {i : Instr} (h : i.kind ≠ .call) (c : Program) :
  Program.events (c ++ [i]) = c.events ++ i.uses.flatMap Operand.events
  := by
  simp [Program.events, Instr.events, h]

/-- A call reads its arguments and then calls. -/
theorem Program.events_concat_call {i : Instr} (h : i.kind = .call) (c : Program) :
  Program.events (c ++ [i]) = c.events ++ i.uses.flatMap Operand.events ++ [.call i.func]
  := by
  simp [Program.events, Instr.events, h]

theorem Computes.eq_nil {k k' : Nat} {xs : List Operand} {c : Program} (h : Computes k [] xs c k') :
  c = []
  := by
  cases h
  rfl

/-- The operand of an expression is a variable exactly if the expression is one, and then it needs
no code. -/
theorem Computes.operand_cases {k k' : Nat} {e : Expr} {x : Operand} {c : Program}
    (h : Computes k [e] [x] c k') :
  (e.isVariable = true ∧ c = [] ∧ e.callCount = 0 ∧ ∃ name, x.events = [.read name]
      ∧ ∀ made, e.reads made = [⟨name, made, 0⟩])
    ∨ (e.isVariable = false ∧ x.events = [])
  := by
  generalize hes : [e] = es at h
  generalize hxs : [x] = xs at h
  induction h generalizing e x with
  | nil => cases hes
  | cons _ h' ih _ =>
      obtain ⟨rfl, rfl⟩ := List.cons.inj hes
      obtain ⟨rfl, -⟩ := List.cons.inj hxs
      rw [h'.eq_nil, List.append_nil]
      apply ih rfl rfl
  | literal =>
      obtain rfl := List.singleton_inj.mp hes
      obtain rfl := List.singleton_inj.mp hxs
      right
      use rfl
      rfl
  | @ident k span name =>
      obtain rfl := List.singleton_inj.mp hes
      obtain rfl := List.singleton_inj.mp hxs
      left
      use rfl, rfl, rfl, name, rfl
      intro made
      rfl
  | group _ ih =>
      obtain rfl := List.singleton_inj.mp hes
      apply ih rfl hxs
  | binary | unary | call =>
      obtain rfl := List.singleton_inj.mp hes
      obtain rfl := List.singleton_inj.mp hxs
      right
      use rfl
      rfl

/-- The code of expressions makes their calls. -/
theorem Computes.calls_events {k k' : Nat} {es : List Expr} {xs : List Operand} {c : Program}
    (h : Computes k es xs c k') :
  calls c.events = calls (Expr.eventsOfAll es)
  := by
  induction h with
  | nil | literal | ident => rfl
  | cons _ _ ih ih' =>
      simp only [Expr.eventsOfAll, List.append_nil] at ih
      rw [Program.events_append, calls_append, ih, ih', Expr.eventsOfAll, calls_append]
  | group _ ih => apply ih
  | binary _ _ ih | unary _ _ ih =>
      rw [Program.events_concat_of_ne (by simp), calls_append, Operand.calls_flatMap_events, ih]
      simp [Expr.eventsOfAll, Expr.events]
  | call _ ih =>
      rw [Program.events_concat_call rfl, calls_append, calls_append,
        Operand.calls_flatMap_events, ih]
      simp [Expr.eventsOfAll, Expr.events]

/-- In the code of expressions, and the instruction that reads their operands, a variable is read
after the calls before it and, if it is an operand itself, after those to its right. -/
theorem Computes.readTimes_events {k k' : Nat} {es : List Expr} {xs : List Operand} {c : Program}
    (h : Computes k es xs c k') (made : Nat) :
  (readTimes made (c.events ++ xs.flatMap Operand.events)).Perm
    ((Expr.readsOfAll made es).map VariableRead.codeTime)
  := by
  induction h generalizing made with
  | nil | literal | ident => apply List.Perm.refl
  | @cons k k₁ k' e es x xs c c' h h' ih ih' =>
      rw [Program.events_append, List.flatMap_cons, Expr.readsOfAll, List.map_append]
      obtain ⟨hvar, rfl, hcalls, name, hx, hreads⟩ | ⟨hvar, hx⟩ := h.operand_cases
      · -- the operand is read after the code of all operands to its right
        have hnil : Program.events [] = [] := rfl
        rw [hx, hreads, hcalls, hnil, List.nil_append, List.singleton_append, Expr.delayed,
          if_pos hvar, Nat.add_zero]
        apply (readTimes_middle _ _ _ _).trans
        rw [h'.calls_events, ← Expr.callCountOfAll]
        simp only [List.map_cons, List.map_nil, List.singleton_append, VariableRead.codeTime,
          VariableRead.delay, Nat.zero_add]
        apply (ih' made).cons
      · -- the operand is computed by its own code
        have hcalls : (calls c.events).length = e.callCount := by
          rw [h.calls_events]
          simp [Expr.eventsOfAll, Expr.callCount]
        have hhead := ih made
        rw [List.flatMap_singleton, hx, List.append_nil, Expr.readsOfAll_singleton] at hhead
        rw [hx, List.nil_append, List.append_assoc, readTimes_append, hcalls, Expr.delayed,
          if_neg (by simp [hvar])]
        apply hhead.append (ih' _)
  | @group k k' span e x c _ ih =>
      rw [Expr.readsOfAll_singleton, Expr.reads, ← Expr.readsOfAll_singleton]
      apply ih
  | @binary k k' span op l r x y c _ _ ih =>
      rw [Program.events_concat_of_ne (by simp), Expr.readsOfAll_singleton, Expr.reads,
        ← Expr.readsOfAll_pair]
      rw [show [Operand.ofTemp k'].flatMap Operand.events = [] from rfl, List.append_nil]
      apply ih
  | @unary k k' span op e x c _ _ ih =>
      rw [Program.events_concat_of_ne (by simp), Expr.readsOfAll_singleton, Expr.reads,
        ← Expr.readsOfAll_singleton]
      rw [show [Operand.ofTemp k'].flatMap Operand.events = [] from rfl, List.append_nil]
      apply ih
  | @call k k' span name nameSpan es xs c _ ih =>
      rw [Program.events_concat_call rfl, Expr.readsOfAll_singleton, Expr.reads]
      rw [show [Operand.ofTemp k'].flatMap Operand.events = [] from rfl, List.append_nil,
        readTimes_append, readTimes, readTimes, List.append_nil]
      apply ih

/-- Executing the code of an expression in order makes all of its calls, in the order of evaluation,
and reads every variable after the calls before it and, if it is an operand of an operator or call,
after those in the operands to its right.  The evaluator makes the same calls in the same order, but
for those in a right operand that the left operand of a lazy operator decides to skip, and none
after a fault. -/
theorem code_of_expression_evaluates_in_order {e : Expr} {s s' : GenState} {x : Operand}
    (h : e.generate.run s = (.ok x, s')) :
  ∃ c : Program, s'.code.toList = s.code.toList ++ c ∧ (∀ i ∈ c, i.isComputation)
    ∧ calls c.events = calls e.events
    ∧ (readTimes 0 (c.events ++ x.events)).Perm ((e.reads 0).map VariableRead.codeTime)
    ∧ readTimes 0 e.events = (e.reads 0).map VariableRead.evalTime
    ∧ ∀ limits deeper, LoggedRun.Logs (e.evalLogged limits deeper) (e.eval limits deeper)
        e.lazyOperands e.events
  := by
  obtain ⟨c, hcode, -, hc⟩ := e.computes_generate h
  have hcalls := hc.calls_events
  have htimes := hc.readTimes_events 0
  rw [List.flatMap_singleton, Expr.readsOfAll_singleton] at htimes
  simp only [Expr.eventsOfAll, List.append_nil] at hcalls
  use c, hcode, fun i hi => (hc.made i hi).1, hcalls, htimes, e.readTimes_events 0
  intro limits deeper
  apply e.logs_evalLogged

/-- A variable, plus the result of a call. -/
def variablePlusCall : Expr := .binary {} .add (.ident {} "x") (.call {} "f" {} [])

/-- A call that a lazy operator never needs. -/
def falseAndCall : Expr :=
  .binary {} .and (.literal {} .boolean "false") (.call {} "f" {} [])

theorem code_of_variablePlusCall_evaluates_in_order :
  ∃ x s', variablePlusCall.generate.run {} = (.ok x, s')
    ∧ ∃ c : Program, s'.code.toList = c ∧ calls c.events = ["f"]
      ∧ (readTimes 0 (c.events ++ x.events)).Perm [("x", 1)]
  := by
  rcases h : variablePlusCall.generate.run {} with ⟨_ | x, s'⟩
  · cases h
  · obtain ⟨c, hcode, -, hcalls, htimes, -⟩ := code_of_expression_evaluates_in_order h
    use x, s', rfl, c, hcode, hcalls, htimes

/-- What the evaluator reads and calls. -/
def Expr.performed (limits : RunLimits) (deeper : Deeper) (r : RunState) (e : Expr) :
    List EvalEvent :=
  ((e.evalLogged limits deeper).run (r, [])).2.2.flatMap LogEntry.performed

/-- A variable, and a function that changes it. -/
def changingCall : List Stmt :=
  [.letVar {} "x" {} (.literal {} .string "a"),
   .function {} "f" {} []
    [.assign {} "x" {} (.literal {} .string "b"), .ret {} (some (.literal {} .string "c"))]]

/-- After the declarations of `changingCall` the evaluator reads `x` before it calls `f` and skips
the call that is not needed.  The code calls `f` before it reads `x`, and makes the call that is not
needed. -/
theorem changingCall_changes_operand :
  (∃ p table, generate (changingCall ++ [.print {} variablePlusCall, .print {} falseAndCall]) {}
      = (.ok p, table))
    ∧ ∃ r, (runBody {} 1 changingCall).run {} = (.ok .next, r)
      ∧ (∃ x s', variablePlusCall.generate.run {} = (.ok x, s')
        ∧ Program.events s'.code.toList = [.call "f", .read "x"]
        ∧ variablePlusCall.performed {} (some (runBody {} 0)) r = [.read "x", .call "f"])
      ∧ ∃ x s', falseAndCall.generate.run {} = (.ok x, s')
        ∧ Program.events s'.code.toList = [.call "f"]
        ∧ falseAndCall.performed {} (some (runBody {} 0)) r = []
  := by
  have hcode : (generate (changingCall ++ [.print {} variablePlusCall, .print {} falseAndCall])
      {}).1.isOk := by decide +kernel
  constructor
  · rcases h : generate (changingCall ++ [.print {} variablePlusCall, .print {} falseAndCall]) {}
      with ⟨_ | p, table⟩
    · rw [h] at hcode
      cases hcode
    · use p, table
  · use ((runBody {} 1 changingCall).run {}).2
    refine ⟨rfl, ⟨_, _, rfl, ?_, ?_⟩, ⟨_, _, rfl, ?_, ?_⟩⟩
    · decide +kernel
    · decide +kernel
    · decide +kernel
    · decide +kernel

end ThreeAddress
