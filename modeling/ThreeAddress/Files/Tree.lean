import ThreeAddress.Files.Access

/-!
# File trees

A file system as a value: what stands at every path, and the working directory.  Links are followed
as a path is walked, and a bound on their number ends the walk in a circle of links.
-/

namespace ThreeAddress

/-- What stands at a path. -/
inductive FileNode where
  | file (content : Text)
  | directory
  | link (target : Text)
deriving Repr

/-- The kind of a node. -/
def FileNode.kind : FileNode → FileKind
  | file _ => .file
  | directory => .directory
  | link _ => .link

/-- A place: the components of an absolute path. -/
abbrev Place := List Text

/-- A tree of files.  The root is always there. -/
structure FileTree where
  nodes : List (Place × FileNode) := []
  cwd : Text := "/"
deriving Repr, Inhabited

namespace FileTree

/-- What stands at a place. -/
def node? (t : FileTree) (place : Place) : Option FileNode :=
  if place.isEmpty then some .directory else t.nodes.lookup place

/-- Puts a node at a place. -/
def put (t : FileTree) (place : Place) (n : FileNode) : FileTree :=
  { t with nodes := (place, n) :: t.nodes.filter (·.1 != place) }

/-- The length of the longest name of a file. -/
def longestName : Nat := 255

/-- Follows the rest of a path from a place.  The last component need not exist; if it is a link it
is followed on demand. -/
def walk (t : FileTree) (follow : Bool) (links : Nat) (done : Place) (todo : List Text) :
    Except FileFault Place :=
  match todo with
  | [] => .ok done
  | name :: rest =>
    if name.isEmpty || name == Path.here then walk t follow links done rest
    else if name == Path.parent then walk t follow links done.dropLast rest
    else if longestName < name.length then .error .nameTooLong
    else
      let place := done ++ [name]
      match t.node? place with
      | none => if rest.isEmpty then .ok place else .error .missing
      | some (.file _) => if rest.isEmpty then .ok place else .error .notDirectory
      | some .directory => walk t follow links place rest
      | some (.link target) =>
        if rest.isEmpty && !follow then .ok place
        else match links with
          | 0 => .error .tooManyLinks
          | links + 1 =>
            walk t follow links (if Path.isAbsolute target then [] else done)
              (Text.splitByte Path.slash target ++ rest)
termination_by (links, todo.length)

/-- The number of links that a path may go through. -/
def maxLinks : Nat := 40

/-- The place that a path leads to; the empty path leads nowhere. -/
def place (t : FileTree) (follow : Bool) (path : Text) : Except FileFault Place :=
  let full := if Path.isAbsolute path then path else t.cwd ++ "/" ++ path
  if path.contains 0 then .error .badName
  else if path.isEmpty then .error .missing
  else if FileAccess.longestPath ≤ path.length then .error .nameTooLong
  else t.walk follow maxLinks [] (Text.splitByte Path.slash full)

/-- The node that a path leads to. -/
def find (t : FileTree) (follow : Bool) (path : Text) : Except FileFault FileNode :=
  match t.place follow path with
  | .error fault => .error fault
  | .ok place =>
    match t.node? place with
    | none => .error .missing
    | some n => .ok n

/-- The content of a file. -/
def read (t : FileTree) (path : Text) : Except FileFault Text :=
  match t.find true path with
  | .ok (.file content) => .ok content
  | .ok .directory => .error .isDirectory
  | .ok (.link _) => .error .missing
  | .error fault => .error fault

/-- The names in a directory, in order. -/
def list (t : FileTree) (path : Text) : Except FileFault (List (Text × FileKind)) :=
  match t.place true path with
  | .error fault => .error fault
  | .ok place =>
    match t.node? place with
    | none => .error .missing
    | some .directory =>
      let entries := t.nodes.filterMap fun (p, n) =>
        if p.dropLast = place then p.getLast?.map fun name => (name, n.kind) else none
      .ok (entries.mergeSort fun a b => decide (a.1 ≤ b.1))
    | some _ => .error .notDirectory

/-- The place where a file can be made; its directory has to exist.  A slash at the end asks for a
directory. -/
def filePlace (t : FileTree) (follow : Bool) (path : Text) : Except FileFault Place := do
  if path.getLast? == some Path.slash then
    let _ ← t.place true (Path.front path)
    throw .isDirectory
  let place ← t.place follow path
  match t.node? place with
  | some .directory => throw .isDirectory
  | _ => return place

/-- Gives a file a content. -/
def write (t : FileTree) (path content : Text) : Except FileFault FileTree := do
  return t.put (← t.filePlace true path) (.file content)

/-- Makes an empty file where there is none. -/
def touch (t : FileTree) (path : Text) : Except FileFault FileTree := do
  let place ← t.filePlace true path
  return if (t.node? place).isSome then t else t.put place (.file [])

/-- Puts a file with a content in the place of what was there. -/
def replace (t : FileTree) (path content : Text) : Except FileFault FileTree := do
  return t.put (← t.filePlace false path) (.file content)

/-- Makes a directory where there is nothing. -/
def makeDir (t : FileTree) (path : Text) : Except FileFault FileTree := do
  let place ← t.place false path
  if (t.node? place).isSome then throw .alreadyThere
  return t.put place .directory

/-- Takes away a path and all below it. -/
def removeAll (t : FileTree) (path : Text) : Except FileFault FileTree :=
  match t.place false path with
  | .error .missing => .ok t
  | .error fault => .error fault
  | .ok place => .ok { t with nodes := t.nodes.filter fun n => !place.isPrefixOf n.1 }

/-- A change of the tree as an action. -/
def change (f : FileTree → Except FileFault FileTree) :
    StateM FileTree (Except FileFault Unit) := do
  match f (← get) with
  | .ok t => set t; return .ok ()
  | .error fault => return .error fault

/-- The operations on a tree. -/
def access : FileAccess (StateM FileTree) where
  kind path := return ((← get).find true path).map FileNode.kind
  ownKind path := return ((← get).find false path).map FileNode.kind
  read path := return (← get).read path
  list path := return (← get).list path
  write path content := change (·.write path content)
  touch path := change (·.touch path)
  replace path content := change (·.replace path content)
  makeDir path := change (·.makeDir path)
  removeAll path := change (·.removeAll path)

/-- Adds a directory and the directories above it. -/
def addDirectory (t : FileTree) (path : Text) : FileTree := (access.makeDirs path t).2

/-- Adds a file and the directories above it. -/
def addFile (t : FileTree) (path content : Text) : FileTree :=
  let t := t.addDirectory (Path.dir path)
  (t.write path content).toOption.getD t

/-- Adds a link and the directories above it. -/
def addLink (t : FileTree) (path target : Text) : FileTree :=
  let t := t.addDirectory (Path.dir path)
  match t.place false path with
  | .ok place => t.put place (.link target)
  | .error _ => t

end FileTree

end ThreeAddress
