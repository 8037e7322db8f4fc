import ThreeAddress.Diagnostic.Basic
import ThreeAddress.Source.FileSet
import ThreeAddress.Text.Style

/-!
# Reports with snippets

Every finding with its path and position, the source line it is about with lines around it, and a
row of marks under the span.  Marks are placed by display columns.
-/

namespace ThreeAddress

/-- How findings are shown. -/
structure PrettyOptions where
  color : Bool := false
  context : Int := 0
  mode : PathMode := .auto
  notes : Bool := false
deriving Repr

namespace Pretty

/-- The style of a severity. -/
def severityStyle : Severity → Style
  | .error => { colour := some .red, bold := true }
  | .warning => { colour := some .yellow, bold := true }
  | _ => { colour := some .cyan }

def codeStyle : Style := { bold := true }
def pathStyle : Style := { colour := some .white, bold := true }
def gutterStyle : Style := { colour := some .blue }
def markStyle : Style := { colour := some .green, bold := true }
def noteStyle : Style := { colour := some .cyan, bold := true }

/-- The number column before a source line. -/
def gutter (o : PrettyOptions) (width : Nat) (label : Text) : Text :=
  " " ++ gutterStyle.paint o.color (Text.padStart width label ++ " |") ++ " "

variable [Measuring]

/-- The row of marks under a span that starts in `line` at `start` and ends at `stop`.  It is `none`
where a range is outside the line or a number of copies negative. -/
def marks? (o : PrettyOptions) (width : Nat) (line : Text) (start stop : Position) :
    Option Text := do
  let size : Int := line.length
  let col := min ((start.column.toNat : Int) - 1) size
  let endCol := if stop.line = start.line then min ((stop.column.toNat : Int) - 1) size else size
  let before ← line.slice? 0 col
  let marked ← line.slice? col (max col endCol)
  let tail ← Text.copies? (max (Text.width marked : Int) 1 - 1) '~'
  let room ← Text.copies? (Text.width before) ' '
  return gutter o width [] ++ room ++ markStyle.paint o.color ("^" ++ tail)

/-- The source lines from number `n` on, at most `count` of them, with the marks under the first
line of the span; an empty line after it ends the snippet. -/
def snippetLines? (o : PrettyOptions) (f : File) (width : Nat) (start stop : Position) :
    (count n : Nat) → Option (List Text)
  | 0, _ => some []
  | count + 1, n => do
    let line ← f.lineIn? .wrapping n.toUInt32
    let first := start.line.toNat
    if first < n ∧ line.isEmpty then return []
    let marks ← if n = first then (marks? o width line start stop).map ([·]) else some []
    let rest ← snippetLines? o f width start stop count (n + 1)
    return (gutter o width (Text.ofNat n) ++ line) :: (marks ++ rest)

/-- The source around a span.  It is `none` where a range is outside a line or outside the file, or
a number of copies negative. -/
def snippet? (o : PrettyOptions) (f : File) (start stop : Position) : Option Text :=
  let first : Int := start.line.toNat
  if first = 0 then some []
  else
    let from_ := max (first - o.context) 1
    let width := (Text.ofInt (first + o.context)).length
    let count := (first + o.context - from_ + 1).toNat
    (snippetLines? o f width start stop count from_.toNat).map Text.lines

/-- A path with a position. -/
def location (path : Text) (p : Position) : Text :=
  path ++ ":" ++ Text.ofNat p.line.toNat ++ ":" ++ Text.ofNat p.column.toNat

/-- Severity, code and message. -/
def headline (o : PrettyOptions) (d : Diagnostic) : Text :=
  (severityStyle d.severity).paint o.color d.severity.name ++ " " ++
    codeStyle.paint o.color d.code.id ++ ": " ++ d.message ++ "\n"

/-- The line of a note, if its file is known. -/
def note (o : PrettyOptions) (fs : FileSet) (n : Note) : Text :=
  match fs.get? n.span.file with
  | none => []
  | some f =>
    "  " ++ noteStyle.paint o.color "note:" ++ " " ++
      location (fs.shownPath f o.mode) (f.position n.span.start) ++ ": " ++ n.message ++ "\n"

/-- A finding.  Findings without a file, and timings, have nothing to point at. -/
def diagnostic (o : PrettyOptions) (fs : Option FileSet) (d : Diagnostic) : Text :=
  match fs, fs.bind (·.get? d.span.file) with
  | some fs, some f =>
    if d.code = .timings then headline o d
    else
      let (start, stop) := f.resolve d.span
      pathStyle.paint o.color (location (fs.shownPath f o.mode) start) ++ ": " ++
        headline o d ++ (snippet? o f start stop).getD [] ++
        (if o.notes then d.notes.flatMap (note o fs) else [])
  | _, _ => headline o d

end Pretty

/-- The report of findings, in their order. -/
def prettyReport [Measuring] (o : PrettyOptions) (fs : Option FileSet) (ds : List Diagnostic) :
    Text :=
  ds.flatMap (Pretty.diagnostic o fs)

end ThreeAddress
