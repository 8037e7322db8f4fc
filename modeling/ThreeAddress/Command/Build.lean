import ThreeAddress.Command.Inspect
import ThreeAddress.Pipeline.Stored
import ThreeAddress.Screen.Progress

/-!
# Builds

The commands that take a file, a directory or a sample through all stages.  Artifacts of files are
kept in a store between builds.
-/

namespace ThreeAddress

namespace Action

variable {m : Type → Type} [Monad m] (host : CommandHost m)

/-- The directory of the store. -/
def storeDir : Except CommandError Text :=
  if !host.cacheHome.isEmpty then .ok (Path.join [host.cacheHome, programName])
  else if host.home.isEmpty then .error (.failed "failed to open cache" "$HOME is not defined")
  else .ok (Path.join [host.home, ".cache", programName])

/-- Opens the store. -/
def openStore : Action m FileStore := do
  match ← liftM (FileStore.openAt host.files (← ofExcept (storeDir host))) with
  | .ok store => return store
  | .error e => throw (.file "failed to open cache" e)

/-- Empties the store. -/
def clearStore (quiet : Bool) : Action m Unit := do
  let store ← openStore host
  match ← liftM (store.clear host.files) with
  | some message => throw (.failed "failed to clean cache" message)
  | none => if !quiet then printError ("removed " ++ store.dir ++ "\n")

/-- Shows the build of a single file. -/
def showBuild (p : Preferences) (name : Text) (r : CompileResult) : Action m Unit := do
  if p.isJson then print (CompileResult.buildJson name r.files r.bag r).document
  else
    showFindings host p r.files r.bag
    print (r.buildReport (layout host p))
  conclude p r

/-- Shows what became of a file in a directory. -/
def showEntry (p : Preferences) (files : FileSet) (e : DirectoryEntry) (isFirst : Bool) :
    Action m Unit := do
  if !p.quiet then
    let gap : Text := if isFirst then [] else "\n"
    print (gap ++ "== " ++ e.name ++ " ==\n")
  match e.result with
  | none => showFindings host p none e.bag
  | some r =>
    showFindings host p files e.bag
    print (r.buildReport (layout host p))
    if p.timings then print r.timesReport

/-- The progress screen at the end of a build. -/
def lastScreen (o : DirectoryOutcome) : Text :=
  let start := ProgressScreen.ofFiles (programName ++ " build") (o.entries.map (·.name))
  (o.events.foldl ProgressScreen.take start).finish.view

/-- Builds a directory. -/
def buildDirectory (p : Preferences) (ui : Choice) (o : CompileOptions)
    (store : Option (ArtifactStore m)) (dir : Text) : Action m Unit := do
  let s ← get
  match ← liftM
      (compileDirectory { now := host.now, store } host.files o host.cwd dir s.tracer) with
  | .error e => throw (.file ("failed to list " ++ dir) e)
  | .ok done =>
    set { s with tracer := done.tracer }.showTrace
    match done.error with
    | some e => throw (.failed "build failed" e)
    | none =>
      if p.isJson then print done.json.document
      else
        let screen := ui.decide host.outIsTerminal && !done.entries.isEmpty
        if screen then print (lastScreen done)
        for (e, n) in done.entries.zipIdx do
          showEntry host p done.files e (n == 0)
        if !screen && !p.quiet then print done.summary
      if done.entries.any (·.bag.hasErrors) then throw .findings

/-- The `build` command. -/
def buildPath (l : CommandLine) (path : Text) : Action m Unit := do
  let ui ← ofExcept (Choice.read "ui" (l.text "ui"))
  let p ← preferences host l path []
  if l.switch "clean-cache" then clearStore host p.quiet
  let store ← if p.settings.cache then some <$> openStore host else pure none
  let access := store.map (·.access host.files)
  let o := { p.compileOptions none with run := l.switch "run" }
  match ← file "failed to stat path" "stat" path (host.files.kind path) with
  | .directory => buildDirectory host p ui o access path
  | _ =>
    let r ← compilePath host "build failed" o access path
    showBuild host p r.file.path r

/-- The `examples` command. -/
def buildSample (l : CommandLine) (name? : Option Text) : Action m Unit := do
  let p ← preferences host l Path.here []
  match name? with
  | none => print (if p.isJson then samplesJson.document else samplesReport (layout host p))
  | some name =>
    let sample ← ofExcept ((Sample.ofName name).mapError .unknownSample)
    let (files, id) := (noFiles host).addVirtual sample.fileName sample.source
    let o := { p.compileOptions none with run := true }
    let r ← compileFile host ("example " ++ sample.name ++ " failed") o none files id
    showBuild host p sample.fileName r

end Action

end ThreeAddress
