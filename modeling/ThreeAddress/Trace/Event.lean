import ThreeAddress.Dict
import ThreeAddress.Json
import ThreeAddress.Trace.Clock
import ThreeAddress.Trace.Level

/-!
# Trace events

An event with its place in the tree of spans, and its three written forms.
-/

namespace ThreeAddress

/-- An event.  Its number is given by the tracer that keeps it; a root span has no parent. -/
structure TraceEvent where
  time : Int := 0
  seq : Nat := 0
  kind : TraceKind := {}
  scope : TraceScope := {}
  span : Nat := 0
  parent : Nat := 0
  thread : Nat := 0
  name : Text := []
  detail : Text := []
  extra : Dict Text := ⟨[]⟩
deriving Repr, Inhabited

namespace TraceEvent

/-- The event as a line, indented by its scope. -/
def line (e : TraceEvent) : Text :=
  let detail : Text := if e.detail.isEmpty then [] else " (" ++ e.detail ++ ")"
  let pairs := e.extra.sorted.map fun (k, v) => k ++ "=" ++ v
  let extra : Text := if pairs.isEmpty then [] else " \x7b" ++ Text.join ", " pairs ++ "\x7d"
  Clock.timeOfDay e.time ++ " #" ++ Text.padEnd 5 (Text.ofNat e.seq) ++ " " ++
    Text.blanks (2 * (e.scope.rank - 1)) ++ e.kind.sign ++ e.name ++ detail ++ extra ++ "\n"

/-- The texts of a dictionary as an object. -/
def texts (d : Dict Text) : Json := .object (d.sorted.map fun (k, v) => (k, .string v))

/-- The event as an object of its own. -/
def object (e : TraceEvent) : Json :=
  .record [
    [("time", .string (Clock.dateTime e.time)), ("seq", .nat e.seq), ("kind", .string e.kind.name),
      ("scope", .string e.scope.name), ("span_id", .nat e.span)],
    Json.natField "parent_id" e.parent,
    Json.natField "gid" e.thread,
    [("name", .string e.name)],
    Json.textField "detail" e.detail,
    if e.extra.entries.isEmpty then [] else [("extra", texts e.extra)]]

/-- The event as a record for a trace viewer. -/
def record (e : TraceEvent) : Json :=
  let phase : Text :=
    if e.kind = .begins then "B" else if e.kind = .ends then "E" else "i"
  let args := if e.detail.isEmpty then e.extra else e.extra.insert "detail" e.detail
  .record [
    [("name", .string e.name), ("cat", .string e.scope.name), ("ph", .string phase),
      ("ts", .int e.time), ("pid", .nat 1), ("tid", .nat e.thread)],
    if args.entries.isEmpty then [] else [("args", texts args)]]

/-- The event in a format; lines are the fallback. -/
def written (e : TraceEvent) (f : TraceFormat) : Text :=
  if f = .objects then e.object.compact ++ "\n"
  else if f = .viewer then e.record.compact
  else e.line

end TraceEvent

end ThreeAddress
