import ThreeAddress.Digest
import ThreeAddress.Machine.Instr
import ThreeAddress.Register.Allocation
import ThreeAddress.Symbol.Table

/-!
# Artifacts

What the stages after parsing make of a source, and a store that keeps it between compilations.
Artifacts are found by the digest of the source together with the register file, which is all
that they depend on.
-/

namespace ThreeAddress

/-- The artifacts of a source, with the version of their layout. -/
structure Artifacts where
  schema : Nat := 1
  path : Text := []
  symbols : Option (List Symbol) := none
  program : Program := []
  graph : Option Graph := none
  allocation : Option Allocation := none
  machine : MachineCode := []
deriving Repr

namespace Artifacts

/-- The version of the layout. -/
def version : Nat := 1

/-- The digest of a source and further parts, each after a zero byte. -/
def combine (content : Digest) (parts : List Text) : Digest :=
  Digest.sha256 (content ++ parts.flatMap fun p => 0 :: p)

/-- The key of a source's artifacts. -/
def key (content : Digest) (file : RegisterFile) : Digest :=
  combine content
    [Text.ofNat version, Text.ofInt file.normalize.count, file.normalize.stem]

/-- Whether artifacts can stand in for a compilation. -/
def isUsable (a : Artifacts) : Bool :=
  a.schema == version && a.graph.isSome && a.allocation.isSome

end Artifacts

/-- What a store answers. -/
inductive StoreAnswer where
  | missing
  | unreadable (message : Text)
  | found (artifacts : Artifacts)
deriving Repr

/-- A store of artifacts in a monad.  A write that fails tells why. -/
structure ArtifactStore (m : Type → Type) where
  get : Digest → m StoreAnswer
  put : Digest → Artifacts → m (Option Text)

end ThreeAddress
