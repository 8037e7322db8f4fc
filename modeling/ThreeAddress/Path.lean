import ThreeAddress.Text.Blank

/-!
# Paths

Paths are texts whose components are separated by slashes.  A cleaned path has no empty component,
no `.`, and `..` only at the front of a relative path; the empty relative path is written `.`.
`Path.relativeTo?` walks from one directory to a file.
-/

namespace ThreeAddress

namespace Path

/-- The separator of components. -/
def slash : UInt8 := 47

/-- The directory itself. -/
def here : Text := "."

/-- The parent directory. -/
def parent : Text := ".."

/-- Whether a path starts at the root. -/
def isAbsolute (p : Text) : Bool := p.head? == some slash

/-- Adds one component to a cleaned stack of components, last one first. -/
def pushPart (absolute : Bool) (stack : List Text) (part : Text) : List Text :=
  if part.isEmpty || part == here then stack
  else if part == parent then
    match stack with
    | top :: rest => if top == parent then part :: stack else rest
    | [] => if absolute then [] else [part]
  else part :: stack

/-- The components of a path after cleaning. -/
def parts (p : Text) : List Text :=
  ((Text.splitByte slash p).foldl (pushPart (isAbsolute p)) []).reverse

/-- Components written as a path. -/
def ofParts (absolute : Bool) (ps : List Text) : Text :=
  if absolute then slash :: Text.join "/" ps
  else if ps.isEmpty then here
  else Text.join "/" ps

/-- A path and the directories above it but for the root, the innermost first. -/
def nested (p : Text) : List Text :=
  let ps := parts p
  (List.range ps.length).map fun n => ofParts (isAbsolute p) (ps.take (ps.length - n))

/-- The shortest path equal to `p` by the rules for `.`, `..` and repeated slashes. -/
def clean (p : Text) : Text := ofParts (isAbsolute p) (parts p)

/-- The non-empty paths joined by slashes and cleaned; nothing gives the empty path. -/
def join (ps : List Text) : Text :=
  match ps.filter (! ·.isEmpty) with
  | [] => []
  | qs => clean (Text.join "/" qs)

/-- The absolute form of a path, where relative paths start at `cwd`. -/
def absolute (cwd p : Text) : Text := if isAbsolute p then clean p else join [cwd, p]

/-- The last component. -/
def base (p : Text) : Text :=
  if p.isEmpty then here
  else match p.reverse.dropWhile (· == slash) with
    | [] => "/"
    | rest => (rest.takeWhile (· != slash)).reverse

/-- A path up to its last component, which may have slashes after it. -/
def front (p : Text) : Text :=
  match ((p.reverse.dropWhile (· == slash)).dropWhile (· != slash)).reverse with
  | [] => here
  | front => front

/-- The directory of a path: all but its last component, cleaned. -/
def dir (p : Text) : Text := clean (p.reverse.dropWhile (· != slash)).reverse

/-- The extension of the last component, from its last dot on. -/
def extension (p : Text) : Text :=
  let name := p.reverse.takeWhile (· != slash)
  let ext := name.takeWhile (· != 46)
  if ext.length < name.length then 46 :: ext.reverse else []

/-- Drops the components that two lists share at the front. -/
def dropShared : List Text → List Text → List Text × List Text
  | a :: as, b :: bs => if a == b then dropShared as bs else (a :: as, b :: bs)
  | as, bs => (as, bs)

/-- The path that leads from the directory `start` to `target`: up once for every component of the
directory that is not shared, then down.  There is none between an absolute and a relative path,
nor out of a directory that starts with `..`. -/
def relativeTo? (start target : Text) : Option Text :=
  let f := clean start
  let t := clean target
  if f == t then some here
  else if isAbsolute f != isAbsolute t then none
  else
    let down := if t == here then [here] else parts t
    let (up, down) := dropShared (parts f) down
    if up.head? == some parent then none
    else some (Text.join "/" (up.map (fun _ => parent) ++ down))

/-- The name under which a file is reported: relative to the base directory if the file lies inside
of it.  A blank base leaves the path as it is. -/
def displayed (cwd base file : Text) : Text :=
  let base := base.trim
  if base.isEmpty then clean file
  else
    let path := absolute cwd (clean file)
    match relativeTo? (absolute cwd base) path with
    | some rel => if rel == here || parent.isPrefixOf rel then path else rel
    | none => path

/-- The names of several files, each once and in order; empty paths are left out. -/
def displayedAll (cwd base : Text) (files : List Text) : List Text :=
  let names := (files.filter (! ·.isEmpty)).map (displayed cwd base)
  names.eraseDups.mergeSort fun a b => decide (a ≤ b)

end Path

end ThreeAddress
