import ThreeAddress.Source.File

/-!
# File sets

A file set owns the files of one compilation.  Adding a path again makes a new file, and looking a
path up finds the newest.  The set remembers the directory that shown paths are relative to, and
the directory that relative paths start at.
-/

namespace ThreeAddress

/-- The files of one compilation. -/
structure FileSet where
  files : Array File := #[]
  baseDir : Text := []
  cwd : Text := "/"
deriving Repr, Inhabited

namespace FileSet

/-- The number of files. -/
def size (s : FileSet) : Nat := s.files.size

/-- Whether the places in a content and the number of one more file are words. -/
def admits (s : FileSet) (content : Text) : Bool :=
  content.length < UInt32.size && s.size < UInt32.size

/-- Adds a file with exactly these bytes, which the set has to admit. -/
def add (s : FileSet) (path content : Text) (flags : Nat) : FileSet × FileId :=
  let id := s.files.size.toUInt32
  let file : File :=
    { id, path := Path.clean path, content, flags
      newlines := (File.newlineOffsets 0 content).toArray }
  ({ s with files := s.files.push file }, id)

/-- Adds a file with exactly these bytes; the program stops at a file that the set does not
admit. -/
def add? (s : FileSet) (path content : Text) (flags : Nat) : Option (FileSet × FileId) :=
  if s.admits content then some (s.add path content flags) else none

/-- Adds a file after clean-up, and records in its flags what clean-up did. -/
def addCleaned (s : FileSet) (path content : Text) (flags : Nat) : FileSet × FileId :=
  let (body, marked, returns) := File.cleanUp content
  let found : FileFlags := { hadMark := marked, hadCarriageReturns := returns }
  s.add path body (flags ||| found.bits)

/-- Adds a file that never existed on disk. -/
def addVirtual (s : FileSet) (path content : Text) : FileSet × FileId :=
  s.addCleaned path content ({ isVirtual := true : FileFlags }).bits

/-- The file of an identifier. -/
def get? (s : FileSet) (id : FileId) : Option File := s.files[id.toNat]?

/-- The newest file added under a path. -/
def byPath? (s : FileSet) (path : Text) : Option File :=
  s.files.toList.reverse.find? (·.path == Path.clean path)

/-- The positions of the two ends of a span. -/
def resolve? (s : FileSet) (sp : Span) : Option (Position × Position) :=
  (s.get? sp.file).map (·.resolve sp)

/-- A path as shown for this set. -/
def shownPath (s : FileSet) (f : File) (mode : PathMode) : Text := f.shownPath s.cwd mode s.baseDir

end FileSet

end ThreeAddress
