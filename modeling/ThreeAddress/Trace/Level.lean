import ThreeAddress.Text.Case
import ThreeAddress.Text.Quoted

/-!
# Trace levels, scopes, kinds, storage and formats

Small numbered enumerations.  A level lets events through by the rank of their scope: a deeper
level lets more through, and an unknown level lets nothing through.
-/

namespace ThreeAddress

/-- How much is traced. -/
structure TraceLevel where
  rank : Nat := 0
deriving DecidableEq, Repr, Inhabited

/-- What an event is about. -/
structure TraceScope where
  rank : Nat := 0
deriving DecidableEq, Repr, Inhabited

/-- What an event tells: a span begins or ends, something happened, or time went by. -/
structure TraceKind where
  number : Nat := 0
deriving DecidableEq, Repr, Inhabited

/-- Where events are kept. -/
structure TraceMode where
  number : Nat := 0
deriving DecidableEq, Repr, Inhabited

/-- How events are written. -/
structure TraceFormat where
  number : Nat := 0
deriving DecidableEq, Repr, Inhabited

/-- The name at a place of a list. -/
def nameAt (names : List String) (n : Nat) : Text :=
  match names[n]? with
  | some name => name
  | none => "unknown"

namespace TraceScope

/-- A whole invocation. -/
def driver : TraceScope := ⟨1⟩

/-- One stage of the pipeline. -/
def pass : TraceScope := ⟨2⟩

/-- One source file. -/
def file : TraceScope := ⟨3⟩

/-- Something inside of a stage. -/
def node : TraceScope := ⟨4⟩

/-- The name of a scope. -/
def name (s : TraceScope) : Text := nameAt ["unknown", "driver", "pass", "file", "node"] s.rank

end TraceScope

namespace TraceKind

/-- A span begins. -/
def begins : TraceKind := ⟨1⟩

/-- A span ends. -/
def ends : TraceKind := ⟨2⟩

/-- An event without duration. -/
def point : TraceKind := ⟨3⟩

/-- A sign of life. -/
def heartbeat : TraceKind := ⟨4⟩

/-- The name of a kind. -/
def name (k : TraceKind) : Text := nameAt ["unknown", "begin", "end", "point", "heartbeat"] k.number

/-- The sign in front of an event. -/
def sign (k : TraceKind) : Text :=
  match k.number with
  | 1 => "→ "
  | 2 => "← "
  | 3 => "• "
  | 4 => "♡ "
  | _ => ""

end TraceKind

namespace TraceLevel

/-- Nothing is traced. -/
def off : TraceLevel := ⟨0⟩

/-- Stages are traced. -/
def phase : TraceLevel := ⟨2⟩

/-- The names of the levels. -/
def names : List String := ["off", "error", "phase", "detail", "debug"]

/-- The name of a level. -/
def name (l : TraceLevel) : Text := nameAt names l.rank

/-- Whether anything is traced. -/
def isOn (l : TraceLevel) : Bool := 0 < l.rank

/-- Whether a level lets events of a scope through. -/
def admits (l : TraceLevel) (s : TraceScope) : Bool :=
  match l.rank with
  | 1 | 2 => s.rank ≤ TraceScope.pass.rank
  | 3 => s.rank ≤ TraceScope.file.rank
  | 4 => true
  | _ => false

/-- Reads the name of a level in any case. -/
def read (t : Text) : Except Text TraceLevel :=
  match names.findIdx? fun n => Text.ofString n == t.lower with
  | some n => .ok ⟨n⟩
  | none =>
    .error ("invalid trace level: " ++ t.quoted ++ " (expected: off|error|phase|detail|debug)")

end TraceLevel

namespace TraceMode

/-- Events are written out at once. -/
def stream : TraceMode := ⟨1⟩

/-- The newest events are kept. -/
def ring : TraceMode := ⟨2⟩

/-- Events are written out and the newest are kept. -/
def both : TraceMode := ⟨3⟩

/-- The name of a mode. -/
def name (m : TraceMode) : Text := nameAt ["unknown", "stream", "ring", "both"] m.number

/-- Reads the name of a mode in any case. -/
def read (t : Text) : Except Text TraceMode :=
  match [stream, ring, both].find? fun m => m.name == t.lower with
  | some m => .ok m
  | none => .error ("invalid storage mode: " ++ t.quoted ++ " (expected: stream|ring|both)")

end TraceMode

namespace TraceFormat

/-- The format follows from the name of the output. -/
def auto : TraceFormat := ⟨0⟩

/-- Lines for people. -/
def text : TraceFormat := ⟨1⟩

/-- One JSON object per line. -/
def objects : TraceFormat := ⟨2⟩

/-- One JSON document for a trace viewer. -/
def viewer : TraceFormat := ⟨3⟩

/-- The names of the formats. -/
def names : List String := ["auto", "text", "ndjson", "chrome"]

/-- Reads the name of a format in any case; no name leaves the choice open. -/
def read (t : Text) : Except Text TraceFormat :=
  if t.isEmpty then .ok auto
  else match names.findIdx? fun n => Text.ofString n == t.lower with
    | some n => .ok ⟨n⟩
    | none => .error ("invalid trace format: " ++ t.quoted ++ " (expected: auto|text|ndjson|chrome)")

/-- The format that the name of an output asks for. -/
def ofPath (path : Text) : TraceFormat :=
  let endsWith (e : Text) : Bool := e.isSuffixOf path
  if endsWith ".ndjson" then objects else if endsWith ".json" then viewer else text

end TraceFormat

end ThreeAddress
