import ThreeAddress.Code.Check
import ThreeAddress.Code.Generate
import ThreeAddress.Diagnostic.Bag
import ThreeAddress.Flow.Check
import ThreeAddress.Machine.Lower
import ThreeAddress.Pipeline.Artifacts
import ThreeAddress.Pipeline.Stage
import ThreeAddress.Pipeline.Timer
import ThreeAddress.Run.Eval
import ThreeAddress.Source.FileSet
import ThreeAddress.Syntax.Parser
import ThreeAddress.Text.Compose
import ThreeAddress.Trace.Tracer

/-!
# Compilation

A file goes through the stages one after another, up to the last one asked for; a stage that finds
errors is the last.  Every stage is a function of the pipeline's state.  Around it the stage is
timed, traced and announced.  Clock and store are parameters, so that the same compilation runs
with a real clock and a real store or with neither.
-/

namespace ThreeAddress

/-- What is asked of a compilation.  Without a last stage the whole back end runs. -/
structure CompileOptions where
  maxDiagnostics : Int := 0
  registers : RegisterFile := {}
  last : Option Stage := none
  run : Bool := false
  maxSteps : Int := 0
  maxDepth : Int := 0
  timings : Bool := false
  displayName : Text := []
  cancelled : Bool := false
deriving Repr

/-- What a compilation made.  Stages that did not run leave their parts empty. -/
structure CompileResult where
  files : FileSet := {}
  file : File := {}
  bag : Bag := {}
  tokens : List Token := []
  tree : Option Tree := none
  symbols : Option (List Symbol) := none
  program : Program := []
  graph : Option Graph := none
  allocation : Option Allocation := none
  machine : MachineCode := []
  stats : Option RunStats := none
  output : Text := []
  reached : Option Stage := none
  cached : Bool := false
  times : StageTimes := {}
  report : Option TimeReport := none

/-- Why a compilation ends early. -/
inductive Stop where
  | stageFailed
  | cancelled
deriving DecidableEq, Repr

/-- The wording of the reason. -/
def Stop.message : Stop → Text
  | stageFailed => "stage reported errors"
  | cancelled => "context canceled"

/-- What a stage tells of itself: notes for its span, a note for the timer, and whether it
failed. -/
structure StageReport where
  counts : List (Text × Nat) := []
  note : Text := []
  failed : Bool := false
deriving Repr

namespace CompileResult

/-- A place for findings without a better one. -/
def fileSpan (r : CompileResult) : Span := { file := r.file.id }

/-- Adds a finding. -/
def add (r : CompileResult) (d : Diagnostic) : CompileResult := { r with bag := r.bag.add d }

/-- An error of the back end, with its explanation as a note. -/
def internalError (r : CompileResult) (code : Code) (message explanation : Text) : CompileResult :=
  r.add { Diagnostic.error code r.fileSpan message with notes := [⟨r.fileSpan, explanation⟩] }

/-- Warns of jumps that lead nowhere. -/
def reportDangling (r : CompileResult) : CompileResult :=
  match r.graph with
  | none => r
  | some g => g.dangling.foldl (fun r d =>
      r.add
        { severity := .warning, code := .danglingJump, span := r.fileSpan, message := d.message
          notes := [⟨r.fileSpan, "block " ++ d.block ++ ", instruction " ++ Text.ofInt d.instr⟩] }) r

/-- Tells which variables have no register. -/
def reportSpills (r : CompileResult) : CompileResult :=
  match r.allocation with
  | none => r
  | some a => a.spilled.foldl (fun r name =>
      r.add
        { severity := .info, code := .spilled, span := r.fileSpan
          message := "variable '" ++ name ++ "' spilled: all " ++ Text.ofNat a.file.length ++
            " registers in use" }) r

end CompileResult

/-! ### The stages -/

namespace Stage

/-- Reads tokens. -/
def lexing (r : CompileResult) : CompileResult × StageReport :=
  let lexed := r.file.lex
  let tokens := lexed.map (·.token)
  let bag := r.bag.addAll (lexed.filterMap (·.diagnostic?))
  ({ r with tokens, bag },
    { counts := [("tokens", tokens.length)]
      note := Text.ofNat tokens.length ++ " tokens"
      failed := bag.hasErrors })

/-- Parses the file.  Errors can be found twice at one place. -/
def parsing (o : CompileOptions) (r : CompileResult) : CompileResult × StageReport :=
  let parsed := ThreeAddress.parse { maxErrors := o.maxDiagnostics.toNat } r.file.id 0 r.file.lex
  let bag := r.bag.addAll (parsed.reports.map (·.diagnostic))
  let bag := if bag.hasErrors then bag.dedup else bag
  let count := parsed.tree.program.length
  ({ r with tree := some parsed.tree, bag },
    { counts := [("stmts", count)]
      note := Text.ofNat count ++ " statements"
      failed := bag.hasErrors })

/-- Generates three-address code.  The symbols declared are kept also on failure. -/
def generating (r : CompileResult) : CompileResult × StageReport × SymbolTable :=
  let statements := (r.tree.map Tree.statements).getD []
  let (generated, table) := generate statements {}
  let r := { r with symbols := some table.symbols }
  match generated with
  | .error e => (r.add (.error e.code e.span e.message), { failed := true }, table)
  | .ok program =>
    match program.check? with
    | some problem =>
      (r.internalError .malformedNode "generated code failed validation" problem,
        { failed := true }, table)
    | none =>
      ({ r with program },
        { counts := [("instrs", program.length), ("symbols", table.symbols.length)]
          note := Text.ofNat program.length ++ " instructions" },
        table)

/-- Builds the graph of blocks. -/
def graphing (r : CompileResult) : CompileResult × StageReport :=
  let g := Graph.build r.program
  let r := { r with graph := some g }.reportDangling
  match g.check?.join with
  | some problem =>
    (r.internalError .graphInvariant "control flow graph is inconsistent" problem,
      { failed := true })
  | none =>
    (r,
      { counts := [("blocks", g.order.length), ("edges", g.edges.length)]
        note := Text.ofNat g.order.length ++ " blocks" })

/-- Allocates registers. -/
def allocating (o : CompileOptions) (r : CompileResult) : CompileResult × StageReport :=
  let a := Allocation.ofProgram o.registers r.graph r.program
  ({ r with allocation := some a }.reportSpills,
    { counts := [("nodes", a.graph.nodes.length), ("spilled", a.spilled.length)]
      note := Text.ofNat a.spilled.length ++ " spilled" })

/-- Lowers to machine code. -/
def emitting (table : SymbolTable) (r : CompileResult) : CompileResult × StageReport :=
  match r.program.lower table with
  | .error e =>
    (r.internalError .malformedNode "cannot lower to CPU code" e.message, { failed := true })
  | .ok machine => ({ r with machine }, { counts := [("instrs", machine.length)] })

/-- Runs the program.  A fault becomes an error with a note for every call under way. -/
def running (o : CompileOptions) (r : CompileResult) : CompileResult × StageReport :=
  let statements := (r.tree.map Tree.statements).getD []
  let ran := runProgram (.ofRequest o.maxSteps o.maxDepth o.cancelled) statements
  let r := { r with stats := some ran.stats, output := ran.output }
  let report : StageReport :=
    { counts := [("steps", ran.stats.steps), ("calls", ran.stats.calls)]
      note := Text.ofNat ran.stats.steps ++ " steps" }
  match ran.fault with
  | none => (r, report)
  | some f =>
    (r.add
      { Diagnostic.error f.cause.code f.span f.cause.message with
        notes := f.backtrace.map fun c => ⟨c.span, "in call to " ++ c.func⟩ },
      { report with failed := true })

end Stage

/-! ### The pipeline -/

/-- The clock, in nanoseconds, and the store that a compilation may use. -/
structure CompileHost (m : Type → Type) where
  now : m Int
  store : Option (ArtifactStore m) := none

/-- The state of a compilation: what was made, the symbol table of the back end, the trace with
the span around the compilation, the timer, and what was announced. -/
structure Pipeline where
  name : Text := []
  result : CompileResult := {}
  table : SymbolTable := {}
  tracer : Tracer := {}
  parent : Nat := 0
  timer : Option PhaseTimer := none
  events : List ProgressEvent := []

namespace Pipeline

/-- Microseconds for the trace. -/
def traceTime (now : Int) : Int := now / 1000

/-- Announces something about the file. -/
def announce (p : Pipeline) (stage : Option Stage) (status : Status) (error : Option Text)
    (elapsed : Int) : Pipeline :=
  { p with events := p.events ++ [{ file := p.name, stage, status, error, elapsed }] }

/-- Opens a span below the compilation's. -/
def openSpan (p : Pipeline) (now : Int) (name : Text) : Pipeline × TraceSpan :=
  let (tracer, span) := p.tracer.openSpan (traceTime now) .pass name p.parent
  ({ p with tracer }, span)

/-- Adds notes to a span and closes it. -/
def closeSpan (p : Pipeline) (now : Int) (span : TraceSpan) (notes : List (Text × Text))
    (detail : Text) : Pipeline :=
  let (tracer, span) := notes.foldl (fun (t, s) (k, v) => t.note s k v) (p.tracer, span)
  { p with tracer := tracer.closeSpan (traceTime now) span detail }

/-- A stage as a function of the state. -/
abbrev Body := Pipeline → Pipeline × StageReport

/-- A stage that changes only what was made. -/
def body (f : CompileResult → CompileResult × StageReport) : Body := fun p =>
  let (result, report) := f p.result
  ({ p with result }, report)

/-- The stages before the run, in order. -/
def stages (o : CompileOptions) : List (Stage × Body) :=
  [(.lex, body Stage.lexing),
    (.parse, body (Stage.parsing o)),
    (.tac, fun p =>
      let (result, report, table) := Stage.generating p.result
      ({ p with result, table }, report)),
    (.cfg, body Stage.graphing),
    (.regalloc, body (Stage.allocating o)),
    (.cpu, fun p => body (Stage.emitting p.table) p)]

/-- The last stage asked for. -/
def lastStage (o : CompileOptions) : Stage := o.last.getD .cpu

/-- Whether a stage has to run: it is not after the last one, or the run needs it. -/
def wants (o : CompileOptions) (s : Stage) : Bool :=
  s.place ≤ (lastStage o).place || (o.run && s.place ≤ Stage.parse.place)

variable {m : Type → Type} [Monad m]

/-- Runs a stage: announced, traced and timed. -/
def runStage (host : CompileHost m) (o : CompileOptions) (stage : Stage) (f : Body)
    (p : Pipeline) : m (Pipeline × Option Stop) := do
  if o.cancelled then return (p, some .cancelled)
  let p := p.announce stage .working none 0
  let began ← host.now
  let (p, span) := p.openSpan began stage.name
  let (timer, phase) := match p.timer with
    | none => (none, 0)
    | some t => let (t, n) := t.start stage.name began; (some t, n)
  let (p, report) := f { p with timer }
  let ended ← host.now
  let stop := if report.failed then some Stop.stageFailed else none
  let p := { p with
    timer := p.timer.map (PhaseTimer.stop · phase report.note ended)
    result := { p.result with
      times := p.result.times.set stage (ended - began)
      reached := if report.failed then p.result.reached else some stage } }
  let counts := report.counts.map fun (k, n) => (k, Text.ofNat n)
  return (p.closeSpan ended span counts ((stop.map Stop.message).getD "ok"), stop)

/-- Runs stages one after another, as long as they are wanted and succeed. -/
def runStages (host : CompileHost m) (o : CompileOptions) :
    List (Stage × Body) → Pipeline → m (Pipeline × Option Stop)
  | [], p => return (p, none)
  | (stage, f) :: rest, p => do
    if wants o stage then
      match ← runStage host o stage f p with
      | (p, none) => runStages host o rest p
      | (p, some stop) => return (p, some stop)
    else return (p, none)

/-- The key of the file's artifacts. -/
def key (o : CompileOptions) (p : Pipeline) : Digest :=
  Artifacts.key p.result.file.digest o.registers

/-- Takes over stored artifacts. -/
def takeOver (p : Pipeline) (a : Artifacts) : Pipeline :=
  let result := { p.result with
    symbols := a.symbols
    program := a.program
    graph := a.graph
    allocation := a.allocation
    machine := a.machine
    cached := true
    reached := some .cpu }
  { p with result := result.reportDangling.reportSpills }

/-- Looks for stored artifacts.  A run needs the syntax tree, so it never uses them. -/
def restore (host : CompileHost m) (o : CompileOptions) (p : Pipeline) : m Pipeline := do
  match host.store with
  | none => return p
  | some store =>
    if o.run || (lastStage o).place < Stage.tac.place then return p
    let began ← host.now
    let (p, span) := p.openSpan began Stage.cache.name
    let answer ← store.get (p.key o)
    let ended ← host.now
    match answer with
    | .unreadable message => return p.closeSpan ended span [] ("unreadable: " ++ message)
    | .missing => return p.closeSpan ended span [] "miss"
    | .found a =>
      if a.isUsable then
        let p := p.takeOver a
        let times := p.result.times.set .cache (ended - began)
        return { p with result := { p.result with times } }.closeSpan ended span [] "hit"
      else return p.closeSpan ended span [] "miss"

/-- The artifacts of a result. -/
def artifacts (r : CompileResult) : Artifacts :=
  { path := r.file.path, symbols := r.symbols, program := r.program, graph := r.graph
    allocation := r.allocation, machine := r.machine }

/-- Stores the artifacts of a complete compilation without errors.  A write that fails only costs
the next compilation its time. -/
def save (host : CompileHost m) (o : CompileOptions) (p : Pipeline) : m Pipeline := do
  match host.store with
  | none => return p
  | some store =>
    if p.result.reached ≠ some .cpu || p.result.bag.hasErrors then return p
    match ← store.put (p.key o) (artifacts p.result) with
    | none => return p
    | some message =>
      let now ← host.now
      let (p, span) := p.openSpan now "cache-write"
      return p.closeSpan now span [] message

/-- Takes a file through the pipeline. -/
def runAll (host : CompileHost m) (o : CompileOptions) (p : Pipeline) :
    m (Pipeline × Option Stop) := do
  let p ← p.restore host o
  if p.result.cached then return (p, none)
  match ← runStages host o (stages o) p with
  | (p, some stop) => return (p, some stop)
  | (p, none) =>
    let p ← p.save host o
    if o.run then runStage host o .run (body (Stage.running o)) p
    else return (p, none)

/-- The finding that carries the times of a compilation. -/
def timingDiagnostic (name : Text) (r : TimeReport) : Diagnostic :=
  let place : Text := if name.isEmpty then [] else " for " ++ name
  let payload := Json.record [
    [("kind", .string "pipeline")], Json.textField "path" name,
    [("total_ms", TimeReport.number r.total), ("phases", r.phasesJson)]]
  { severity := .info, code := .timings, span := {}
    message := "timings (pipeline): total " ++ Decimal.fixed 2 r.total ++ " ms" ++ place
    notes := [⟨{}, payload.compact⟩] }

/-- Adds the times to the findings, also beyond the limit. -/
def addTimings (p : Pipeline) : Pipeline :=
  match p.timer with
  | none => p
  | some timer =>
    let report := TimeReport.ofTimer timer
    let d := timingDiagnostic p.name report
    let bag := p.result.bag
    let bag := if bag.isFull then bag.merge { items := [d] } else bag.add d
    { p with result := { p.result with report := some report, bag } }

end Pipeline

/-- What comes of a compilation: what was made, what was announced, the trace, and the reason if it
was cut short from outside. -/
structure CompileOutcome where
  result : CompileResult
  events : List ProgressEvent
  tracer : Tracer
  error : Option Text

/-- Compiles a file of a set, below a span of the trace. -/
def compile {m : Type → Type} [Monad m] (host : CompileHost m) (o : CompileOptions)
    (files : FileSet) (file : File) (tracer : Tracer) (parent : Nat) : m CompileOutcome := do
  let name := if o.displayName.isEmpty then file.path else o.displayName
  let began ← host.now
  let (tracer, span) := tracer.openSpan (Pipeline.traceTime began) .file "compile" parent
  let (tracer, span) := tracer.note span "file" name
  let start : Pipeline :=
    { name, tracer
      result := { files, file, bag := .ofLimit o.maxDiagnostics }
      parent := if span.isLive then span.id else parent
      timer := if o.timings then some [] else none }
  let (p, stop) ← start.runAll host o
  let error := match stop with
    | some .cancelled => some Stop.cancelled.message
    | _ => none
  let ended ← host.now
  let status : Status :=
    if error.isSome || p.result.bag.hasErrors then .error
    else if p.result.cached then .cached
    else .done
  let p := (p.announce p.result.reached status error (ended - began)).addTimings
  let notes : List (Text × Text) :=
    [("status", status.name), ("diagnostics", Text.ofNat p.result.bag.items.length)]
  let p := p.closeSpan ended span notes (stageName p.result.reached)
  return { result := p.result, events := p.events, tracer := p.tracer, error }

end ThreeAddress
