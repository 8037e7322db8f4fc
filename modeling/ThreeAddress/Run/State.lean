import ThreeAddress.Dict
import ThreeAddress.Run.Fault
import ThreeAddress.Word

/-!
# Running programs: the state

A run keeps the global variables, the functions declared so far, the calls under way with their
local variables, the text printed so far, and counts.  A name is looked up in the innermost call
and then among the globals, never in the calls between.

The steps are counted in a word with a sign.  Under any limit but the largest word this word never
wraps around, and evaluation counts with the number for which it stands.  `Run.tickWord` counts in
the word itself, which is never over the largest word.
-/

namespace ThreeAddress

/-- How far a run may go. -/
structure RunLimits where
  steps : Nat := 1000000
  depth : Nat := 1000
  cancelled : Bool := false
deriving Repr

/-- The limits asked for, with the usual ones in place of those that are not positive. -/
def RunLimits.ofRequest (steps depth : Int) (cancelled : Bool) : RunLimits :=
  let usual : RunLimits := {}
  { steps := if steps ≤ 0 then usual.steps else steps.toNat
    depth := if depth ≤ 0 then usual.depth else depth.toNat
    cancelled }

/-- A declared function. -/
structure FunctionBody where
  params : List Text
  body : List Stmt
deriving Repr, Inhabited

/-- A call under way. -/
structure CallFrame where
  site : CallSite
  locals : Dict Value := ⟨[]⟩
deriving Repr

/-- What a run did. -/
structure RunStats where
  steps : Nat := 0
  calls : Nat := 0
  deepest : Nat := 0
deriving DecidableEq, Repr, Inhabited

/-- The word with a sign that counts the steps, which wraps around. -/
def RunStats.counter (stats : RunStats) : Int := Word.toInt (Word.ofInt stats.steps)

/-- The state of a run.  Calls are listed innermost first, printed pieces in order. -/
structure RunState where
  globals : Dict Value := ⟨[]⟩
  functions : Dict FunctionBody := ⟨[]⟩
  frames : List CallFrame := []
  printed : Array Text := #[]
  stats : RunStats := {}
deriving Repr

/-- A step of a run: it may end in a fault, and what it did before stays done. -/
abbrev Run := ExceptT Fault (StateM RunState)

namespace RunState

/-- The text printed so far. -/
def output (s : RunState) : Text := s.printed.toList.flatten

/-- The value of a name. -/
def lookup (s : RunState) (name : Text) : Option Value :=
  match s.frames with
  | [] => s.globals.get? name
  | f :: _ => (f.locals.get? name).or (s.globals.get? name)

/-- Binds a name in the innermost call, or globally outside of calls. -/
def define (s : RunState) (name : Text) (v : Value) : RunState :=
  match s.frames with
  | [] => { s with globals := s.globals.insert name v }
  | f :: rest => { s with frames := { f with locals := f.locals.insert name v } :: rest }

/-- Whether the innermost call binds a name. -/
def bindsLocally (s : RunState) (name : Text) : Bool :=
  match s.frames with
  | [] => false
  | f :: _ => f.locals.contains name

/-- Changes the value of a name that is bound; `none` if it is not. -/
def assign (s : RunState) (name : Text) (v : Value) : Option RunState :=
  if s.bindsLocally name then some (s.define name v)
  else if s.globals.contains name then some { s with globals := s.globals.insert name v }
  else none

/-- Enters a call. -/
def enter (s : RunState) (frame : CallFrame) : RunState :=
  { s with
    frames := frame :: s.frames
    stats := { s.stats with
      calls := s.stats.calls + 1
      deepest := max s.stats.deepest (s.frames.length + 1) } }

/-- Leaves the innermost call. -/
def leave (s : RunState) : RunState := { s with frames := s.frames.tail }

end RunState

namespace Run

/-- Ends the run with a fault inside the calls under way. -/
def fail {α : Type} (cause : FaultCause) (span : Span) : Run α := do
  let s ← get
  throw ⟨cause, span, s.frames.map (·.site)⟩

/-- The step after which a run looks whether it was cancelled, and every multiple of it. -/
def cancelInterval : Nat := 1024

/-- Counts a step.  The run ends if the count is over the limit, or if it was cancelled. -/
def count (exceeds : RunStats → Bool) (limits : RunLimits) (span : Span) : Run Unit := do
  modify fun s => { s with stats := { s.stats with steps := s.stats.steps + 1 } }
  let stats := (← get).stats
  if exceeds stats then fail (.stepLimit limits.steps) span
  if limits.cancelled && stats.steps % cancelInterval == 0 then fail .cancelled span

/-- Counts a step, within the limit. -/
def tick (limits : RunLimits) : Span → Run Unit :=
  count (fun stats => decide (limits.steps < stats.steps)) limits

/-- Counts a step in a word, within the limit. -/
def tickWord (limits : RunLimits) : Span → Run Unit :=
  count (fun stats => decide (limits.steps < stats.counter)) limits

/-- Prints a line. -/
def printLine (t : Text) : Run Unit :=
  modify fun s => { s with printed := s.printed.push (t ++ [10]) }

/-- Runs the body of a call in a frame of its own, which is left also after a fault. -/
def inFrame {α : Type} (frame : CallFrame) (body : Run α) : Run α := fun s =>
  let (r, s) := body (s.enter frame)
  (r, s.leave)

end Run

end ThreeAddress
