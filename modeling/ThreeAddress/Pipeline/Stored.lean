import ThreeAddress.Files.Access
import ThreeAddress.Packed.Codec
import ThreeAddress.Pipeline.Artifacts

/-!
# Stored artifacts

Artifacts are stored in files, one for each key, in packed form.  What is packed is all but the
index of the interference graph, which can be made anew from its edges.
-/

namespace ThreeAddress

namespace Codec

/-- Types of data. -/
def dataType : Codec DataType :=
  text.via DataType.name fun t => (DataType.ofName? t).getD .number

/-- Symbols. -/
def symbol : Codec Symbol :=
  (pair text (pair dataType (pair nat (pair bool (pair (list dataType) (option nat)))))).via
    (fun s => (s.name, s.type, s.scope, s.isFunction, s.params, s.address))
    fun (name, type, scope, isFunction, params, address) =>
      { name, type, scope, isFunction, params, address }

/-- Operands. -/
def operand : Codec Operand :=
  (pair nat (pair text (pair int nat))).via
    (fun o => (o.kind.toNumber, o.text, o.temp, o.lit.toNumber))
    fun (kind, text, temp, lit) => { kind := .ofNumber kind, text, temp, lit := .ofNumber lit }

/-- Instructions. -/
def instr : Codec Instr :=
  (pair nat (pair (list operand) (pair text (pair text (pair (list operand)
      (pair (list text) bool)))))).via
    (fun i => (i.kind.toNumber, [i.target, i.left, i.right, i.source, i.cond], i.label, i.func, i.args,
      i.params, i.hasValue))
    fun (kind, operands, label, func, args, params, hasValue) =>
      let at_ (n : Nat) : Operand := operands.getD n {}
      { kind := .ofNumber kind, target := at_ 0, left := at_ 1, right := at_ 2, source := at_ 3
        cond := at_ 4, label, func, args, params, hasValue }

/-- Blocks. -/
def block : Codec Block :=
  (pair text (pair int (pair int (pair (list instr) (pair (list text) (pair (list text)
      (pair bool bool))))))).via
    (fun b => (b.id, b.start, b.stop, b.instrs, b.preds, b.succs, b.isEntry, b.isExit))
    fun (id, start, stop, instrs, preds, succs, isEntry, isExit) =>
      { id, start, stop, instrs, preds, succs, isEntry, isExit }

/-- Edges of a graph of blocks. -/
def edge : Codec Edge :=
  (pair text (pair text text)).via (fun e => (e.source, e.target, e.label))
    fun (source, target, label) => { source, target, label }

/-- Jumps that lead nowhere. -/
def danglingJump : Codec DanglingJump :=
  (pair text (pair int (pair text text))).via (fun d => (d.block, d.instr, d.label, d.message))
    fun (block, instr, label, message) => { block, instr, label, message }

/-- Graphs of blocks. -/
def graph : Codec Graph :=
  (pair (dict block) (pair (list text) (pair text (pair (list text) (pair (list edge)
      (pair (list danglingJump) int)))))).via
    (fun g => (g.blocks, g.order, g.entry, g.exits, g.edges, g.dangling, g.size))
    fun (blocks, order, entry, exits, edges, dangling, size) =>
      { blocks, order, entry, exits, edges, dangling, size }

/-- Live ranges. -/
def liveRange : Codec LiveRange :=
  (pair text (pair int int)).via (fun r => (r.name, r.start, r.stop))
    fun (name, start, stop) => { name, start, stop }

/-- Edges of an interference graph. -/
def conflict : Codec Conflict :=
  (pair text text).via (fun e => (e.source, e.target)) fun (source, target) => { source, target }

/-- Interference graphs, without their index. -/
def interference : Codec Interference :=
  (pair (list text) (pair (list conflict) (pair (dict nat) (dict nat)))).via
    (fun g => (g.nodes, g.edges, g.colours, g.degrees))
    fun (nodes, edges, colours, degrees) => { nodes, edges, colours, degrees, index := none }

/-- Decisions of a colouring. -/
def placement : Codec Placement :=
  (option (pair nat text)).via
    (fun
      | .colour c r => some (c, r)
      | .spill => none)
    (fun
      | some (c, r) => .colour c r
      | none => .spill)

/-- Steps of a colouring. -/
def allocationStep : Codec AllocationStep :=
  (pair nat (pair text (pair placement (dict nat)))).via
    (fun s => (s.index, s.node, s.placement, s.colours))
    fun (index, node, placement, colours) => { index, node, placement, colours }

/-- Allocations. -/
def allocation : Codec Allocation :=
  (pair (dict text) (pair (list text) (pair interference (pair (list liveRange)
      (pair (list allocationStep) (pair (dict (list text)) (list text))))))).via
    (fun a => (a.registers, a.spilled, a.graph, a.ranges, a.steps, a.blockVariables, a.file))
    fun (registers, spilled, graph, ranges, steps, blockVariables, file) =>
      { registers, spilled, graph, ranges, steps, blockVariables, file }

/-- Instructions of the machine. -/
def machineInstr : Codec MachineInstr :=
  (pair nat (list text)).via
    (fun i => (i.op.toNumber, [i.reg, i.left, i.right, i.value, i.target, i.name]))
    fun (op, ts) =>
      let at_ (n : Nat) : Text := ts.getD n []
      { op := .ofNumber op, reg := at_ 0, left := at_ 1, right := at_ 2, value := at_ 3
        target := at_ 4, name := at_ 5 }

end Codec

namespace Artifacts

/-- The packed form of artifacts: a record with a field for each part. -/
def pack (a : Artifacts) : Packed :=
  .record [
    ("schema", Codec.nat.pack a.schema),
    ("path", Codec.text.pack a.path),
    ("symbols", (Codec.option (Codec.list Codec.symbol)).pack a.symbols),
    ("tac", (Codec.list Codec.instr).pack a.program),
    ("cfg", (Codec.option Codec.graph).pack a.graph),
    ("alloc", (Codec.option Codec.allocation).pack a.allocation),
    ("cpu", (Codec.list Codec.machineInstr).pack a.machine)]

/-- The artifacts of a packed form. -/
def unpack : Packed → Option Artifacts
  | .record fields => do
    let field {α : Type} (c : Codec α) (name : Text) : Option α := do c.unpack (← fields.lookup name)
    return {
      schema := ← field Codec.nat "schema"
      path := ← field Codec.text "path"
      symbols := ← field (Codec.option (Codec.list Codec.symbol)) "symbols"
      program := ← field (Codec.list Codec.instr) "tac"
      graph := ← field (Codec.option Codec.graph) "cfg"
      allocation := ← field (Codec.option Codec.allocation) "alloc"
      machine := ← field (Codec.list Codec.machineInstr) "cpu" }
  | _ => none

/-- The bytes of artifacts. -/
def toBytes (a : Artifacts) : Text := a.pack.write

/-- The artifacts that some bytes stand for. -/
def ofBytes (t : Text) : Except Text Artifacts :=
  match Packed.ofBytes t with
  | .error e => .error e.message
  | .ok p =>
    match unpack p with
    | some a => .ok a
    | none => .error "msgpack: unexpected value"

end Artifacts

/-! ### Stores in files -/

/-- A store in a directory. -/
structure FileStore where
  dir : Text
deriving Repr

namespace FileStore

/-- The file of a key.  Files are spread over directories by the first two digits of their keys. -/
def pathOf (s : FileStore) (key : Digest) : Text :=
  let name := key.hexBytes
  Path.join [s.dir, "artifacts", name.take 2, name ++ ".mp"]

/-- The file that is locked while the store changes.  It lies beside the store, so that the store
itself can be taken away. -/
def lockPath (s : FileStore) : Text := s.dir ++ ".lock"

variable {m : Type → Type} [Monad m] (fs : FileAccess m)

/-- Opens the store in a directory, which is made if it is not there. -/
def openAt (dir : Text) : m (Except FileError FileStore) := do
  return (← fs.makeDirs dir).map fun _ => { dir }

/-- Looks for artifacts. -/
def get (s : FileStore) (key : Digest) : m StoreAnswer := do
  match ← fs.load (s.pathOf key) with
  | .error e =>
    return if e.fault = .missing then .missing else .unreadable e.message
  | .ok t =>
    match Artifacts.ofBytes t with
    | .ok a => return .found a
    | .error e => return .unreadable e

/-- Runs actions one after another up to the first that fails; tells what failed. -/
def firstError : List (m (Except FileError Unit)) → m (Option FileError)
  | [] => return none
  | run :: rest => do
    match ← run with
    | .ok _ => firstError rest
    | .error e => return some e

/-- An action on a path whose faults are errors. -/
def named (action path : Text) (run : m (Except FileFault Unit)) : m (Except FileError Unit) := do
  return (← run).mapError (⟨action, path, ·⟩)

/-- Locks the store. -/
def lock (s : FileStore) : m (Except FileError Unit) :=
  named "open" s.lockPath (fs.touch s.lockPath)

/-- Stores artifacts.  The file of the key is put in the place of the one before it. -/
def put (s : FileStore) (key : Digest) (a : Artifacts) : m (Option Text) := do
  let path := s.pathOf key
  let failed ← firstError [
    s.lock fs,
    fs.makeDirs (Path.dir path),
    named "rename" path (fs.replace path a.toBytes)]
  return failed.map FileError.message

/-- Takes all artifacts away and leaves an empty store. -/
def clear (s : FileStore) : m (Option Text) := do
  let failed ← firstError [
    s.lock fs,
    named "rename" s.dir (fs.removeAll s.dir),
    fs.makeDirs s.dir]
  return failed.map FileError.message

/-- The store as seen by a compilation. -/
def access (s : FileStore) : ArtifactStore m where
  get := s.get fs
  put := s.put fs

end FileStore

end ThreeAddress
