import ThreeAddress.Command.Perform

/-!
# The program

The command line on real files: the operations of the file system, the surroundings of a command,
and the entry point.
-/

namespace ThreeAddress

namespace RealFiles

/-- The name of a file. -/
def name (path : Text) : String := (path.toString?).getD ""

/-- The faults that have a name. -/
def faults : List FileFault :=
  [.missing, .notDirectory, .isDirectory, .alreadyThere, .tooManyLinks, .nameTooLong, .badName]

/-- The fault that the system describes in its words. -/
def describedFault (details : String) : FileFault :=
  let message := Text.lowerAscii details
  (faults.find? (·.message == message)).getD (.other message)

/-- The fault that an error of the system is. -/
def fault (e : IO.Error) : FileFault :=
  match e with
  | .noFileOrDirectory .. => .missing
  | .inappropriateType _ _ details | .alreadyExists _ _ details | .invalidArgument _ _ details
  | .permissionDenied _ _ details | .resourceExhausted _ _ details => describedFault details
  | e => .other e.toString

/-- An operation whose errors are faults. -/
def attempt {α : Type} (x : IO α) : IO (Except FileFault α) := do
  match ← x.toBaseIO with
  | .ok a => return .ok a
  | .error e => return .error (fault e)

/-- The kind of a file. -/
def kindOf (m : IO.FS.Metadata) : FileKind :=
  match m.type with
  | .dir => .directory
  | .symlink => .link
  | _ => .file

/-- The entries of a directory in order. -/
def entries (path : Text) : IO (List (Text × FileKind)) := do
  let found ← ((← IO.currentDir) / name path).readDir
  let kinds ← found.toList.mapM fun e => do
    return (Text.ofString e.fileName, kindOf (← e.path.symlinkMetadata))
  return kinds.mergeSort fun a b => decide (a.1 ≤ b.1)

/-- The operations on real files. -/
def access : FileAccess IO where
  kind path := attempt do return kindOf (← ((← IO.currentDir) / name path).metadata)
  ownKind path := attempt do return kindOf (← ((← IO.currentDir) / name path).symlinkMetadata)
  read path := attempt do return (← IO.FS.readBinFile (name path)).data.toList
  list path := attempt (entries path)
  write path content := attempt (IO.FS.writeBinFile (name path) ⟨content.toArray⟩)
  touch path := attempt do discard (IO.FS.Handle.mk (name path) .append)
  replace path content := attempt do
    let draft := name path ++ ".tmp"
    IO.FS.writeBinFile draft ⟨content.toArray⟩
    IO.FS.rename draft (name path)
  makeDir path := attempt (IO.FS.createDir (name path))
  removeAll path := attempt (IO.FS.removeDirAll (name path))

/-- The value of an environment variable, empty if it is not set. -/
def environment (key : String) : IO Text := return Text.ofString ((← IO.getEnv key).getD "")

/-- The surroundings of a command.  The clock counts from an arbitrary start. -/
def host : IO (CommandHost IO) := do
  return {
    files := access
    now := return (← IO.monoNanosNow : Nat)
    cwd := Text.ofString (← IO.currentDir).toString
    cacheHome := ← environment "XDG_CACHE_HOME"
    home := ← environment "HOME"
    outIsTerminal := ← (← IO.getStdout).isTty
    errIsTerminal := ← (← IO.getStderr).isTty }

end RealFiles

end ThreeAddress

open ThreeAddress in
/-- The entry point. -/
def main (words : List String) : IO UInt32 := do
  let outcome ← performCommand (← RealFiles.host) (words.map Text.ofString)
  (← IO.getStdout).write ⟨outcome.out.toArray⟩
  (← IO.getStderr).write ⟨outcome.err.toArray⟩
  return outcome.exit.toUInt32
