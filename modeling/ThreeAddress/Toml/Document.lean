import ThreeAddress.Toml.Written

/-!
# Settings documents

The statements of a document define its tables one after another.  A table comes into being by its
header, by a dotted key through it, or by an inline table.  A table that came into being on the way
to another is implicit and can be defined once more; everything else can be defined once, save that
a key that held an array may be given a new value.
-/

namespace ThreeAddress

namespace Toml

/-- Why a text is no document. -/
inductive Problem where
  | malformed
  | redefined (key : Key)
  | notTable (key : Key)
deriving Repr

/-- The wording of a problem. -/
def Problem.message : Problem → Text
  | malformed => "malformed document"
  | redefined k => "key '" ++ k.shown ++ "' has already been defined"
  | notTable k => "key '" ++ k.shown ++ "' is not a table"

namespace Table

/-- The value of a name. -/
def get? (t : Table) (name : Text) : Option Value := t.lookup name

/-- Gives a name a value; a name that has one keeps its place. -/
def set (t : Table) (name : Text) (v : Value) : Table :=
  if (t.get? name).isSome then t.map fun e => if e.1 == name then (name, v) else e
  else t ++ [(name, v)]

/-- The table at a path; at an array of tables the path goes on in its last row. -/
def at? : (path : Key) → Table → Option Table
  | [], t => some t
  | name :: path, t =>
    match t.get? name with
    | some (.table sub) => at? path sub
    | some (.tables rows) => at? path (rows.getLastD [])
    | _ => none

/-- Replaces the table at a path. -/
def replace (new : Table) : (path : Key) → Table → Table
  | [], _ => new
  | name :: path, t =>
    match t.get? name with
    | some (.table sub) => t.set name (.table (replace new path sub))
    | some (.tables rows) =>
      t.set name (.tables (rows.dropLast ++ [replace new path (rows.getLastD [])]))
    | _ => t

/-- Makes the tables on a path that are not there, and tells which they are. -/
def ensure : (path : Key) → Table → Except Problem (Table × List Key)
  | [], t => return (t, [])
  | name :: path, t => do
    let under (made : List Key) : List Key := made.map (name :: ·)
    match t.get? name with
    | none =>
      let (sub, made) ← ensure path []
      return (t.set name (.table sub), [name] :: under made)
    | some (.table sub) =>
      let (sub, made) ← ensure path sub
      return (t.set name (.table sub), under made)
    | some (.tables rows) =>
      let (sub, made) ← ensure path (rows.getLastD [])
      return (t.set name (.tables (rows.dropLast ++ [sub])), under made)
    | some _ => .error (.notTable [name])

end Table

/-- A document with the order of its keys.  It remembers which tables are implicit, and of the keys
with a header or a value which hold arrays and on which lines they stand. -/
structure Document where
  root : Table := []
  order : List Key := []
  implicit : List Key := []
  arrays : List Key := []
  lines : List (Key × Nat) := []

namespace Document

/-- Marks a key as implicit. -/
def addImplicit (d : Document) (k : Key) : Document := { d with implicit := k :: d.implicit }

/-- Marks a key as explicit. -/
def dropImplicit (d : Document) (k : Key) : Document :=
  { d with implicit := d.implicit.filter (· != k) }

/-- Notes that a key was written. -/
def addOrder (d : Document) (k : Key) : Document := { d with order := d.order ++ [k] }

/-- Notes whether a name of a table holds an array, and its line.  The empty name stands for the
table. -/
def note (d : Document) (context : Key) (name : Text) (isArray : Bool) (line : Nat) : Document :=
  let key : Key :=
    if !name.isEmpty then context ++ [name] else if context.isEmpty then [[]] else context
  let others := d.arrays.filter (· != key)
  { d with arrays := if isArray then key :: others else others, lines := (key, line) :: d.lines }

/-- Gives a name of a table a value. -/
def define (d : Document) (context : Key) (name : Text) (v : Value) : Except Problem Document :=
  let key := context ++ [name]
  match Table.at? context d.root with
  | none => .error (.notTable context)
  | some t =>
    let changed := { d with root := Table.replace (t.set name v) context d.root }
    if (t.get? name).isNone then .ok changed
    else if d.arrays.contains key then .ok (changed.dropImplicit key)
    else if d.implicit.contains key then .ok (d.dropImplicit key)
    else .error (.redefined key)

/-- Makes the tables above a key. -/
def ensureAbove (d : Document) (key : Key) : Except Problem Document := do
  let (root, made) ← Table.ensure key.dropLast d.root
  return { d with root, implicit := made ++ d.implicit }

/-- The last part of a key. -/
def nameOf (key : Key) : Text := key.getLastD []

/-- Opens the table of a key. -/
def openTable (d : Document) (key : Key) : Except Problem Document := do
  (← d.ensureAbove key).define key.dropLast (nameOf key) (.table [])

/-- Opens one more row of an array of tables. -/
def openRow (d : Document) (key : Key) : Except Problem Document := do
  let d ← d.ensureAbove key
  match Table.at? key.dropLast d.root with
  | none => .error (.notTable key)
  | some t =>
    let put (rows : List Table) : Document :=
      { d with root := Table.replace (t.set (nameOf key) (.tables rows)) key.dropLast d.root }
    match t.get? (nameOf key) with
    | none => return put [[]]
    | some (.tables rows) => return put (rows ++ [[]])
    | some _ => .error (.redefined key)

/-- Opens the tables that a dotted key goes through below a table. -/
def openDotted (d : Document) : (context path : Key) → Except Problem Document
  | _, [] => .ok d
  | context, name :: path => do
    let context := context ++ [name]
    openDotted (← (d.addImplicit context).openTable context) context path

mutual

/-- The value of a name; an inline table comes into being in the document as it is read. -/
def value (line : Nat) (context : Key) (name : Text) (inArray : Bool) :
    Written → Document → Except Problem (Value × Document)
  | .string t, d => .ok (.string t, d)
  | .integer n, d => .ok (.integer n, d)
  | .float x, d => .ok (.float x, d)
  | .boolean b, d => .ok (.boolean b, d)
  | .time t, d => .ok (.time t, d)
  | .array items, d => do
    let (vs, d) ← values line context name items (d.note context name true line)
    return (.array vs, d)
  | .table entries, d => do
    let key := context ++ [name]
    let d := d.addImplicit key
    let d ← if inArray then d.openRow key else d.openTable key
    let (t, d) ← assignAll key entries [] d
    return (.table t, d)

/-- The values of an array. -/
def values (line : Nat) (context : Key) (name : Text) :
    List Written → Document → Except Problem (List Value × Document)
  | [], d => .ok ([], d)
  | w :: ws, d => do
    let (v, d) ← value line context name true w d
    let (vs, d) ← values line context name ws d
    return (v :: vs, d)

/-- Gives keys below a table their values, and collects the values by the last parts of the
keys. -/
def assignAll (context : Key) :
    List (Key × Nat × Written) → Table → Document → Except Problem (Table × Document)
  | [], t, d => .ok (t, d)
  | (key, line, w) :: rest, t, d => do
    let inner := context ++ key.dropLast
    let name := nameOf key
    let d ← openDotted d context key.dropLast
    let (v, d) ← value line inner name false w (d.addOrder (context ++ key))
    let d ← d.define inner name v
    let isArray := match v with
      | .array _ => true
      | _ => false
    assignAll context rest (t.set name v) (d.note inner name isArray line)

end

/-- Takes a statement into the document, below the table of the last header. -/
def add (d : Document) (context : Key) : Statement → Except Problem (Document × Key)
  | .header key line => do
    return (((← d.openTable key).note key [] false line).addOrder key, key)
  | .row key line => do
    return (((← d.openRow key).note key [] false line).addOrder key, key)
  | .assign key line w => do
    let (_, d) ← assignAll context [(key, line, w)] [] d
    return (d, context)

/-- The document of a series of statements. -/
def ofStatements : List Statement → Document → (context : Key) → Except Problem Document
  | [], d, _ => .ok d
  | s :: rest, d, context => do
    let (d, context) ← d.add context s
    ofStatements rest d context

/-- The document that a text describes. -/
def ofText (t : Text) : Except Problem Document :=
  match Written.ofText? t with
  | none => .error .malformed
  | some ss => ofStatements ss {} []

end Document

end Toml

end ThreeAddress
