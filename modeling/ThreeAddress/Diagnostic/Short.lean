import ThreeAddress.Diagnostic.Basic
import ThreeAddress.Source.FileSet
import ThreeAddress.Text.Blank

/-!
# One-line reports

Every finding on a line of its own, with the path and position it is about.  The lines are sorted,
so that they do not depend on the order in which the findings were made.
-/

namespace ThreeAddress

/-- A finding on one line. -/
structure ShortLine where
  label : Text
  code : Text
  path : Text
  line : Nat
  column : Nat
  message : Text
deriving DecidableEq, Repr

namespace ShortLine

/-- A message on one line: line ends become blanks, white space at the ends goes. -/
def oneLine (message : Text) : Text :=
  message.dropReturns.map (fun b => if b = 10 then 32 else b) |> Text.trim

/-- The line about a span, if its file is known. -/
def at? (fs : FileSet) (label code : Text) (span : Span) (message : Text) : Option ShortLine :=
  (fs.get? span.file).map fun f =>
    let p := f.position span.start
    let path := (Text.dropLeading? "./" f.path).getD f.path
    ⟨label, code, path, p.line.toNat, p.column.toNat, oneLine message⟩

/-- The lines of a finding: its own, and if asked for those of its notes. -/
def ofDiagnostic (fs : FileSet) (notes : Bool) (d : Diagnostic) : List ShortLine :=
  (at? fs d.severity.label d.code.id d.span d.message).toList ++
    if notes then d.notes.filterMap fun n => at? fs "note" d.code.id n.span n.message else []

/-- Whether one line does not stand after another: by path, line, column, label, code and
message. -/
def le (a b : ShortLine) : Bool :=
  if a.path ≠ b.path then a.path < b.path
  else if a.line ≠ b.line then a.line < b.line
  else if a.column ≠ b.column then a.column < b.column
  else if a.label ≠ b.label then a.label < b.label
  else if a.code ≠ b.code then a.code < b.code
  else a.message ≤ b.message

/-- The line as text. -/
def text (l : ShortLine) : Text :=
  l.label ++ " " ++ l.code ++ " " ++ l.path ++ ":" ++ Text.ofNat l.line ++ ":" ++
    Text.ofNat l.column ++ " " ++ l.message

end ShortLine

/-- The report of findings, one line each; without files there is nothing to point at. -/
def shortReport (fs : Option FileSet) (notes : Bool) (ds : List Diagnostic) : Text :=
  match fs with
  | none => []
  | some fs =>
    let lines := (ds.flatMap (ShortLine.ofDiagnostic fs notes)).mergeSort ShortLine.le
    Text.join "\n" (lines.map ShortLine.text)

end ThreeAddress
