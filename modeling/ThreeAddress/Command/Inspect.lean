import ThreeAddress.Command.Session
import ThreeAddress.Screen.Steps
import ThreeAddress.Syntax.Drawing
import ThreeAddress.Syntax.Json
import ThreeAddress.Text.Width
import ThreeAddress.Token.Listing

/-!
# Looking at stages

The commands that compile a file as far as they need to, show the findings, and print what a stage
made if the compilation came that far; and the command that runs a program.
-/

namespace ThreeAddress

namespace Action

variable {m : Type → Type} [Monad m] (host : CommandHost m)

/-- The preferences for a file or directory. -/
def preferences (l : CommandLine) (target : Text) (more : List Text) : Action m Preferences := do
  match ← liftM (Manifest.load host.files host.cwd target) with
  | .error e => throw (.manifest e)
  | .ok found =>
    let settings := (found.map (·.settings)).getD {}
    ofExcept (Preferences.ofSettings l (Preferences.formats ++ more) settings)

/-- The layout of reports. -/
def layout (p : Preferences) : Layout :=
  { quiet := p.quiet, color := p.color.decide host.outIsTerminal }

/-- Shows the findings of a compilation. -/
def showFindings (p : Preferences) (files : Option FileSet) (bag : Bag) : Action m Unit :=
  if bag.items.isEmpty then pure ()
  else if p.isJson then
    printError (jsonReport { positions := true, notes := true } files bag.items).document
  else
    printError (prettyReport
      { color := p.color.decide host.errIsTerminal, context := 2, notes := true } files bag.items)

/-- Compiles a file of a set as part of a task. -/
def compileFile (task : Text) (o : CompileOptions) (store : Option (ArtifactStore m))
    (files : FileSet) (id : FileId) : Action m CompileResult := do
  let s ← get
  let done ← liftM
    (compile { now := host.now, store } o files ((files.get? id).getD {}) s.tracer 0)
  set { s with tracer := done.tracer }.showTrace
  match done.error with
  | some e => throw (.failed task e)
  | none => return done.result

/-- The set of files of a command. -/
def noFiles : FileSet := { cwd := host.cwd }

/-- Reads a file and compiles it as part of a task. -/
def compilePath (task : Text) (o : CompileOptions) (store : Option (ArtifactStore m))
    (path : Text) : Action m CompileResult := do
  match ← liftM ((noFiles host).load host.files path) with
  | .error e => throw (.file task e)
  | .ok (files, id) => compileFile host task o store files id

/-- Ends a command that compiled a file: the times are shown, and errors in the program make the
command fail. -/
def conclude (p : Preferences) (r : CompileResult) : Action m Unit := do
  if p.timings && !p.isJson then print r.timesReport
  if r.bag.hasErrors then throw .findings

/-- A command that compiles a file up to a stage and prints what the stage made, if it was
completed. -/
def inspect (task : Text) (p : Preferences) (o : CompileOptions) (stage : Option Stage)
    (path : Text) (shown : CompileResult → Text) : Action m Unit := do
  let r ← compilePath host task o none path
  showFindings host p r.files r.bag
  if (stage.map r.hasReached).getD true then print (shown r)
  conclude p r

/-- What `tokenize` prints. -/
def tokensShown (p : Preferences) (r : CompileResult) : Text :=
  if p.isJson then (tokensJson r.files r.tokens).document
  else (layout host p).part "Tokens" (tokenTable r.tokens)

/-- What `parse` prints. -/
def treeShown (p : Preferences) (r : CompileResult) : Text :=
  let tree := r.tree.getD {}
  if p.isJson then tree.json.document
  else if p.format == "tree" then (tree.outline r.files).drawn
  else (layout host p).part "Parsing" (tree.outline r.files).render

/-- What `ir` prints. -/
def codeShown (p : Preferences) (r : CompileResult) : Text :=
  if p.isJson then r.codeJson.document
  else r.symbolsPart (layout host p) ++ r.codePart (layout host p)

/-- What `cfg` prints. -/
def graphShown (p : Preferences) (drawing : Bool) (r : CompileResult) : Text :=
  if drawing then (r.graph.map Graph.drawn).getD []
  else if p.isJson then ((r.graph.map Graph.json).getD .null).document
  else r.graphPart (layout host p)

/-- What `regalloc` prints.  The screen for single steps is shown as it is before the first. -/
def allocationShown (p : Preferences) (steps screen : Bool) (r : CompileResult) : Text :=
  if screen then (r.allocation.map fun a => StepScreen.view { allocation := a }).getD []
  else if p.isJson then ((r.allocation.map Allocation.json).getD .null).document
  else r.allocationPart (layout host p) steps

/-- What `cpu` prints. -/
def machineShown (p : Preferences) (r : CompileResult) : Text :=
  if p.isJson then r.machine.json.document else r.machinePart (layout host p)

/-- A command on a single file that is compiled without a store. -/
def inspectStage (l : CommandLine) (path : Text) (stage : Stage)
    (shown : Preferences → CompileResult → Text) : Action m Unit := do
  let p ← preferences host l path []
  inspect host "compilation failed" p (p.compileOptions stage) stage path (shown p)

/-- The `tokenize` command. -/
def tokenizeFile (l : CommandLine) (path : Text) : Action m Unit := do
  let p ← preferences host l path []
  inspect host "tokenization failed" p { maxDiagnostics := p.maxDiagnostics, last := some .lex }
    none path (tokensShown host p)

/-- The `parse` command. -/
def parseFile (l : CommandLine) (path : Text) : Action m Unit := do
  let p ← preferences host l path ["tree"]
  inspect host "parsing failed" p { maxDiagnostics := p.maxDiagnostics, last := some .parse }
    (some .parse) path (treeShown host p)

/-- The `run` command. -/
def runFile (l : CommandLine) (path : Text) : Action m Unit := do
  let p ← preferences host l path []
  let o := { p.compileOptions (some .parse) with run := true }
  let r ← compilePath host "run failed"
    { o with maxSteps := (l.integer? "max-steps").getD o.maxSteps } none path
  print r.output
  showFindings host p r.files r.bag
  match r.stats with
  | some s =>
    if p.timings && !p.isJson then
      print ("steps " ++ Text.ofNat s.steps ++ ", calls " ++ Text.ofNat s.calls ++ ", max depth " ++
        Text.ofNat s.deepest ++ "\n")
  | none => pure ()
  conclude p r

end Action

end ThreeAddress
