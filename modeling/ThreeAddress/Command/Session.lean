import ThreeAddress.BuildInfo
import ThreeAddress.Command.Report
import ThreeAddress.Files.Access

/-!
# Sessions

A command under way: what it printed, its trace, and the profiles that it still owes.  The command
is given its surroundings as a record, so that it runs on real files or on a value that stands for
them.
-/

namespace ThreeAddress

/-- The surroundings of a command. -/
structure CommandHost (m : Type → Type) where
  files : FileAccess m
  now : m Int
  cwd : Text
  cacheHome : Text := []
  home : Text := []
  outIsTerminal : Bool := false
  errIsTerminal : Bool := false
  build : BuildInfo := {}

/-- A command under way.  A trace without a file goes where errors go. -/
structure Session where
  out : Text := []
  err : Text := []
  tracer : Tracer := {}
  traceFile : Option Text := none
  heapProfile : Option Text := none

/-- An action of a command.  What was printed before an error stays printed. -/
abbrev Action (m : Type → Type) := ExceptT CommandError (StateT Session m)

/-- What comes of a command. -/
structure CommandOutcome where
  exit : Nat
  out : Text
  err : Text

namespace Session

/-- The session after printing. -/
def print (s : Session) (t : Text) : Session := { s with out := s.out ++ t }

/-- The session after printing where errors go. -/
def printError (s : Session) (t : Text) : Session := { s with err := s.err ++ t }

/-- Prints what the trace wrote since the last time, unless it goes to a file. -/
def showTrace (s : Session) : Session :=
  match s.traceFile, s.tracer.stream with
  | none, some stream =>
    { s with
      err := s.err ++ stream.written
      tracer := { s.tracer with stream := some { stream with pieces := #[] } } }
  | _, _ => s

/-- Prints the events that are still kept. -/
def showRing (s : Session) : Session :=
  match s.tracer.ring with
  | none => s
  | some ring =>
    if ring.size = 0 then s
    else s.printError
      ("trace: last " ++ Text.ofNat ring.size ++ " events\n" ++ ring.dump .text)

end Session

namespace Action

variable {m : Type → Type} [Monad m]

/-- Prints. -/
def print (t : Text) : Action m Unit := modify (·.print t)

/-- Prints where errors go. -/
def printError (t : Text) : Action m Unit := modify (·.printError t)

/-- A result that may be an error of the command. -/
def ofExcept {α : Type} (r : Except CommandError α) : Action m α :=
  match r with
  | .ok a => pure a
  | .error e => throw e

/-- An action on files that belongs to a task. -/
def file {α : Type} (task action path : Text) (x : m (Except FileFault α)) : Action m α := do
  match ← liftM x with
  | .ok a => return a
  | .error fault => throw (.file task ⟨action, path, fault⟩)

/-! ### Instruments -/

/-- The configuration of the trace; none if nothing is traced. -/
def traceConfig? (l : CommandLine) : Except CommandError (Option TraceConfig) := do
  let read {α : Type} (what word : Text) (f : Text → Except Text α) : Except CommandError α :=
    (f word).mapError (.failed ("invalid trace " ++ what))
  let path := l.text "trace"
  let level ← read "level" ((l.text? "trace-level").getD "off") TraceLevel.read
  let level := if level = .off ∧ !path.isEmpty then .phase else level
  if level = .off then return none
  let mode ← read "mode" ((l.text? "trace-mode").getD "stream") TraceMode.read
  let format ← read "format" ((l.text? "trace-format").getD "auto") TraceFormat.read
  return some { level, mode, format, path, capacity := (l.integer? "trace-ring-size").getD 0 }

/-- Starts the trace.  The file that it goes to is made at once. -/
def startTrace (host : CommandHost m) (l : CommandLine) : Action m Unit := do
  match ← ofExcept (traceConfig? l) with
  | none => pure ()
  | some c =>
    let tracer ← ofExcept ((Tracer.ofConfig c).mapError (.failed "failed to create tracer"))
    let toFile := tracer.stream.isSome && !c.path.isEmpty && c.path != "-"
    if toFile then
      let head := (tracer.stream.map TraceStream.written).getD []
      file "failed to create tracer: failed to open trace output" "open" c.path
        (host.files.write c.path head)
    modify fun s =>
      { s with tracer, traceFile := if toFile then some c.path else none }.showTrace

/-- Starts the profiles.  Their files are made at once, but for that of the heap. -/
def startProfiles (host : CommandHost m) (l : CommandLine) : Action m Unit := do
  let make (task option : Text) : Action m Unit := do
    let path := l.text option
    if !path.isEmpty then file task "open" path (host.files.write path [])
  make "failed to start profiling" "cpu-profile"
  make "failed to start profiling: runtime trace" "runtime-trace"
  let heap := l.text "mem-profile"
  modify fun s => { s with heapProfile := if heap.isEmpty then none else some heap }

end Action

namespace Session

variable {m : Type → Type} [Monad m]

/-- Writes the profile of the heap. -/
def writeHeapProfile (s : Session) (host : CommandHost m) : m Session := do
  match s.heapProfile with
  | none => return s
  | some path =>
    match ← host.files.write path [] with
    | .ok _ => return s
    | .error fault =>
      return s.printError
        ("failed to write profiles: " ++ (FileError.mk "open" path fault).message ++ "\n")

/-- Ends the trace. -/
def endTrace (s : Session) (host : CommandHost m) : m Session := do
  let s := { s with tracer := s.tracer.close }.showTrace
  match s.traceFile, s.tracer.stream with
  | some path, some stream =>
    let _ ← host.files.write path stream.written
    return s
  | _, _ => return s

/-- The outcome of a session.  After a failure the events that are still kept are shown, then what
the failure was. -/
def finish (s : Session) (host : CommandHost m) (r : Except CommandError Unit) :
    m CommandOutcome := do
  let (exit, s) := match r with
    | .ok _ => (0, s)
    | .error e => (1, s.showRing.printError e.shown)
  let s ← s.writeHeapProfile host
  let s ← s.endTrace host
  return { exit, out := s.out, err := s.err }

end Session

end ThreeAddress
