import ThreeAddress.Files.Access
import ThreeAddress.Project.Settings

/-!
# Manifests

A project is a directory with a manifest, which holds its settings.  The manifest of a file is the
nearest one in the directories above it.  In a manifest every key has to be a setting.
-/

namespace ThreeAddress

/-- A manifest that was found. -/
structure Manifest where
  path : Text
  settings : Settings
deriving Repr

/-- Why there is no manifest to go by. -/
inductive ManifestError where
  | search (candidate : Text) (fault : FileFault)
  | unreadable (path : Text) (error : FileError)
  | unknownKeys (path : Text) (keys : List Toml.Key)
  | settings (path : Text) (error : SettingsError)
deriving Repr

namespace ManifestError

/-- The wording of an error. -/
def message : ManifestError → Text
  | search candidate fault =>
    "failed to stat " ++ candidate.quoted ++ ": " ++ (FileError.mk "stat" candidate fault).message
  | unreadable path e => path ++ ": failed to parse TOML: " ++ e.message
  | unknownKeys path keys => path ++ ": unknown keys: " ++ Text.join ", " (keys.map Toml.Key.shown)
  | settings path e => path ++ ": " ++ e.message

/-- Whether the document itself is at fault and not the value of a setting. -/
def isDocumentError : ManifestError → Bool
  | unreadable .. => true
  | settings _ e => e.isDocumentError
  | _ => false

end ManifestError

namespace Manifest

/-- The name of manifests. -/
def fileName : Text := "tacc.toml"

/-- The directory of a manifest. -/
def root (m : Manifest) : Text := Path.dir m.path

/-- A directory and those above it, the innermost first. -/
def ancestors (dir : Text) : List Text :=
  let parts := Path.parts dir
  (List.range (parts.length + 1)).map fun n => Path.ofParts true (parts.take (parts.length - n))

variable {m : Type → Type} [Monad m] (fs : FileAccess m)

/-- The first of some directories that has a manifest. -/
def search : List Text → m (Except ManifestError (Option Text))
  | [] => return .ok none
  | dir :: rest => do
    let candidate := Path.join [dir, fileName]
    match ← fs.kind candidate with
    | .ok _ => return .ok (some candidate)
    | .error .missing => search rest
    | .error fault => return .error (.search candidate fault)

/-- The manifest above a file or directory; an empty path is the working directory. -/
def locate (cwd start : Text) : m (Except ManifestError (Option Text)) := do
  let path := Path.absolute cwd (if start.isEmpty then Path.here else start)
  let dir := match ← fs.kind path with
    | .ok .file => Path.dir path
    | _ => path
  search fs (ancestors dir)

/-- The settings of a manifest. -/
def settingsOf (path : Text) (t : Text) : Except ManifestError Settings :=
  let wrap {α : Type} (r : Except SettingsError α) : Except ManifestError α :=
    r.mapError (.settings path)
  match Toml.Document.ofText t with
  | .error p => .error (.settings path (.document p))
  | .ok d => do
    let known ← wrap (Settings.check d)
    match Settings.unknownKeys d known with
    | [] => wrap (Settings.ofChecked d)
    | keys => .error (.unknownKeys path keys)

/-- Finds and reads the manifest above a file or directory. -/
def load (cwd start : Text) : m (Except ManifestError (Option Manifest)) := do
  match ← locate fs cwd start with
  | .error e => return .error e
  | .ok none => return .ok none
  | .ok (some path) =>
    match ← fs.load path with
    | .error e => return .error (.unreadable path e)
    | .ok t =>
      match settingsOf path t with
      | .error e => return .error e
      | .ok settings => return .ok (some { path, settings })

end Manifest

end ThreeAddress
