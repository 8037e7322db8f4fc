import ThreeAddress.Path
import ThreeAddress.Source.FileSet

/-!
# Access to files

What the library asks of a file system, as a record of operations in a monad.  Paths are texts;
relative ones start at the working directory.
-/

namespace ThreeAddress

/-- Why an operation on a file fails. -/
inductive FileFault where
  | missing
  | notDirectory
  | isDirectory
  | alreadyThere
  | tooManyLinks
  | nameTooLong
  | badName
  | other (message : Text)
deriving DecidableEq, Repr

/-- The wording of a fault. -/
def FileFault.message : FileFault → Text
  | missing => "no such file or directory"
  | notDirectory => "not a directory"
  | isDirectory => "is a directory"
  | alreadyThere => "file exists"
  | tooManyLinks => "too many levels of symbolic links"
  | nameTooLong => "file name too long"
  | badName => "invalid argument"
  | other t => t

/-- A fault with the operation and the path. -/
structure FileError where
  action : Text
  path : Text
  fault : FileFault
deriving Repr

/-- The wording of an error. -/
def FileError.message (e : FileError) : Text := e.action ++ " " ++ e.path ++ ": " ++ e.fault.message

/-- What a path can lead to. -/
inductive FileKind where
  | file | directory | link
deriving DecidableEq, Repr

/-- The operations of a file system.  `kind` follows links and `ownKind` does not; `list` gives the
names in a directory in order.  A file that is not there is made by `write` and `touch`, which
follow links, and by `replace`, which puts the new file in the place of a link; `touch` leaves a
file that is there as it is.  `makeDir` makes a single directory. -/
structure FileAccess (m : Type → Type) where
  kind : Text → m (Except FileFault FileKind)
  ownKind : Text → m (Except FileFault FileKind)
  read : Text → m (Except FileFault Text)
  list : Text → m (Except FileFault (List (Text × FileKind)))
  write : Text → Text → m (Except FileFault Unit)
  touch : Text → m (Except FileFault Unit)
  replace : Text → Text → m (Except FileFault Unit)
  makeDir : Text → m (Except FileFault Unit)
  removeAll : Text → m (Except FileFault Unit)

namespace FileAccess

variable {m : Type → Type} [Monad m] (fs : FileAccess m)

/-- Reads a file.  A directory can be opened but not read. -/
def load (path : Text) : m (Except FileError Text) := do
  match ← fs.read path with
  | .ok t => return .ok t
  | .error .isDirectory => return .error ⟨"read", path, .isDirectory⟩
  | .error fault => return .error ⟨"open", path, fault⟩

/-- Makes the first of some paths a directory, where each path lies in the next. -/
def makeNested : List Text → m (Except FileError Unit)
  | [] => return .ok ()
  | path :: above => do
    match ← fs.kind path with
    | .ok .directory => return .ok ()
    | .ok _ => return .error ⟨"mkdir", path, .notDirectory⟩
    | .error _ =>
      match ← makeNested above with
      | .error e => return .error e
      | .ok _ =>
        match ← fs.makeDir path, ← fs.ownKind path with
        | .ok _, _ | _, .ok .directory => return .ok ()
        | .error fault, _ => return .error ⟨"mkdir", path, fault⟩

/-- Makes a directory and those above it that are not there. -/
def makeDirs (path : Text) : m (Except FileError Unit) := fs.makeNested (Path.nested path)

/-- The length of the longest path. -/
def longestPath : Nat := 4096

/-- The paths below a path that are no directories and satisfy `p`, in the order of the names.  A
path inside of another is longer, so the length of the longest path bounds the depth. -/
def below (p : Text → Bool) :
    (levels : Nat) → Text → FileKind → m (Except FileError (List Text))
  | 0, _, _ => return .ok []
  | levels + 1, path, kind => do
    match kind with
    | .file | .link => return .ok (if p path then [path] else [])
    | .directory =>
      match ← fs.list path with
      | .error fault => return .error ⟨"open", path, fault⟩
      | .ok entries =>
        entries.foldlM (fun acc (name, kind) => do
          match acc with
          | .error e => return .error e
          | .ok found =>
            match ← below p levels (Path.join [path, name]) kind with
            | .error e => return .error e
            | .ok more => return .ok (found ++ more)) (.ok [])

/-- The paths below a path that are no directories and satisfy `p`, sorted. -/
def find (p : Text → Bool) (path : Text) : m (Except FileError (List Text)) := do
  match ← fs.ownKind path with
  | .error fault => return .error ⟨"lstat", path, fault⟩
  | .ok kind =>
    match ← fs.below p longestPath path kind with
    | .error e => return .error e
    | .ok found => return .ok (found.mergeSort fun a b => decide (a ≤ b))

end FileAccess

/-- Reads a file into a set. -/
def FileSet.load {m : Type → Type} [Monad m] (s : FileSet) (fs : FileAccess m) (path : Text) :
    m (Except FileError (FileSet × FileId)) := do
  match ← fs.load path with
  | .error e => return .error e
  | .ok content => return .ok (s.addCleaned path content 0)

end ThreeAddress
