import ThreeAddress.Diagnostic.Basic
import ThreeAddress.Json
import ThreeAddress.Source.FileSet

/-!
# Reports as JSON

The findings as one document, each with its location; positions are given if asked for and known.
-/

namespace ThreeAddress

/-- How findings are written; `max` cuts the report if it is positive. -/
structure DiagnosticJsonOptions where
  positions : Bool := false
  mode : PathMode := .auto
  max : Int := 0
  notes : Bool := false
deriving Repr

namespace DiagnosticJson

/-- The location of a span. -/
def location (o : DiagnosticJsonOptions) (fs : Option FileSet) (s : Span) : Json :=
  let bytes : List (Text × Json) :=
    [("start_byte", .nat s.start.toNat), ("end_byte", .nat s.stop.toNat)]
  match fs, fs.bind (·.get? s.file) with
  | some fs, some f =>
    let (a, b) := f.resolve s
    .record [
      [("file", .string (fs.shownPath f o.mode))],
      bytes,
      if o.positions then
        Json.natField "start_line" a.line.toNat ++ Json.natField "start_col" a.column.toNat ++
          Json.natField "end_line" b.line.toNat ++ Json.natField "end_col" b.column.toNat
      else []]
  | _, _ => .record [[("file", .string [])], bytes]

/-- A note. -/
def note (o : DiagnosticJsonOptions) (fs : Option FileSet) (n : Note) : Json :=
  .object [("message", .string n.message), ("location", location o fs n.span)]

/-- A finding.  Timings always carry their notes, which are what they report. -/
def diagnostic (o : DiagnosticJsonOptions) (fs : Option FileSet) (d : Diagnostic) : Json :=
  .record [
    [("severity", .string d.severity.name), ("code", .string d.code.id),
      ("message", .string d.message), ("location", location o fs d.span)],
    if o.notes || d.code == .timings then Json.listField "notes" (d.notes.map (note o fs)) else []]

end DiagnosticJson

/-- The document of findings. -/
def jsonReport (o : DiagnosticJsonOptions) (fs : Option FileSet) (ds : List Diagnostic) : Json :=
  let shown := if 0 < o.max then ds.take o.max.toNat else ds
  .object [("diagnostics", .array (shown.map (DiagnosticJson.diagnostic o fs))),
    ("count", .nat shown.length)]

end ThreeAddress
