import ThreeAddress.Files.Access
import ThreeAddress.Pipeline.Compile

/-!
# Compiling a directory

All source files below a directory are compiled, in the order of their paths.  A file that cannot
be read becomes a finding of its own and does not keep the others from being compiled.
-/

namespace ThreeAddress

/-- What became of one file.  A file that could not be read has no result. -/
structure DirectoryEntry where
  name : Text
  result : Option CompileResult := none
  bag : Bag := {}

/-- The output of the program, if it ran. -/
def DirectoryEntry.output (e : DirectoryEntry) : Text := (e.result.map (·.output)).getD []

/-- What comes of compiling a directory. -/
structure DirectoryOutcome where
  files : FileSet := {}
  entries : List DirectoryEntry := []
  events : List ProgressEvent := []
  tracer : Tracer := {}
  error : Option Text := none

/-- The extension of source files. -/
def sourceExtension : Text := ".tac"

/-- A file with its name and what loading it gave. -/
structure LoadedFile where
  name : Text
  file : Except FileError File

namespace DirectoryOutcome

variable {m : Type → Type} [Monad m]

/-- The source files below a directory. -/
def sourceFiles (fs : FileAccess m) (dir : Text) : m (Except FileError (List Text)) :=
  fs.find (fun p => sourceExtension.isSuffixOf p) dir

/-- Reads files into a set. -/
def loadAll (fs : FileAccess m) (cwd dir : Text) (files : FileSet) :
    List Text → m (FileSet × List LoadedFile)
  | [] => return (files, [])
  | path :: rest => do
    let (files, file) ← match ← files.load fs path with
      | .ok (files, id) => pure (files, .ok ((files.get? id).getD {}))
      | .error e => pure (files, .error e)
    let (files, more) ← loadAll fs cwd dir files rest
    return (files, { name := Path.displayed cwd dir path, file } :: more)

/-- A file that could not be read. -/
def unreadable (o : CompileOptions) (name : Text) (e : FileError) :
    DirectoryEntry × ProgressEvent :=
  let d := Diagnostic.error .loadFailed {} ("failed to load " ++ name ++ ": " ++ e.message)
  ({ name, bag := (Bag.ofLimit o.maxDiagnostics).add d },
    { file := name, stage := some .lex, status := .error, error := some e.message })

/-- Compiles the next file. -/
def addFile (host : CompileHost m) (o : CompileOptions) (parent : Nat) (acc : DirectoryOutcome)
    (f : LoadedFile) : m DirectoryOutcome := do
  if acc.error.isSome then return acc
  else if o.cancelled then return { acc with error := some Stop.cancelled.message }
  else match f.file with
    | .error e =>
      let (entry, event) := unreadable o f.name e
      return { acc with entries := acc.entries ++ [entry], events := acc.events ++ [event] }
    | .ok file =>
      let r ← compile host { o with displayName := f.name } acc.files file acc.tracer parent
      let entry : DirectoryEntry := { name := f.name, result := some r.result, bag := r.result.bag }
      return { acc with
        entries := acc.entries ++ [entry]
        events := acc.events ++ r.events
        tracer := r.tracer
        error := r.error }

end DirectoryOutcome

open DirectoryOutcome in
/-- Compiles the source files below a directory. -/
def compileDirectory {m : Type → Type} [Monad m] (host : CompileHost m) (fs : FileAccess m)
    (o : CompileOptions) (cwd dir : Text) (tracer : Tracer) :
    m (Except FileError DirectoryOutcome) := do
  match ← sourceFiles fs dir with
  | .error e => return .error e
  | .ok paths =>
    let files : FileSet := { baseDir := dir, cwd }
    if paths.isEmpty then return .ok { files, tracer }
    let now ← host.now
    let (tracer, span) := tracer.openSpan (Pipeline.traceTime now) .driver "compile-dir" 0
    let (tracer, span) := tracer.note span "dir" dir
    let (tracer, span) := tracer.note span "files" (Text.ofNat paths.length)
    let (files, loaded) ← loadAll fs cwd dir files paths
    let start : DirectoryOutcome :=
      { files, tracer
        events := loaded.map fun f => { file := f.name, status := .queued } }
    let done ← loaded.foldlM (addFile host o (if span.isLive then span.id else 0)) start
    let now ← host.now
    return .ok { done with tracer := done.tracer.closeSpan (Pipeline.traceTime now) span [] }

end ThreeAddress
