import ThreeAddress.Command.Preferences
import ThreeAddress.Diagnostic.Json
import ThreeAddress.Diagnostic.Pretty
import ThreeAddress.Flow.Listing
import ThreeAddress.Pipeline.Directory
import ThreeAddress.Register.Listing
import ThreeAddress.Sample
import ThreeAddress.Symbol.Listing
import ThreeAddress.Text.Duration
import ThreeAddress.Text.Style
import ThreeAddress.Text.Width

/-!
# Reports

What the commands print: the parts of a compilation under headings, the times of its stages, a whole
build as a JSON document, and the summary of a directory.
-/

namespace ThreeAddress

/-- How a report is laid out. -/
structure Layout where
  quiet : Bool := false
  color : Bool := false
deriving Repr

/-- A part of a report under its heading. -/
def Layout.part (l : Layout) (title : Text) (body : Text) : Text :=
  if l.quiet then body else heading title l.color ++ body

namespace CompileResult

/-- Whether a stage was completed. -/
def hasReached (r : CompileResult) (s : Stage) : Bool :=
  match r.reached with
  | some last => decide (0 ≤ s.place ∧ s.place ≤ last.place)
  | none => false

/-- A part of a report, if its stage was completed. -/
def part (r : CompileResult) (l : Layout) (s : Stage) (title : Text) (body : Text) : Text :=
  if r.hasReached s then l.part title body else []

/-! ### Parts -/

/-- The symbol table. -/
def symbolsPart (r : CompileResult) (l : Layout) : Text :=
  r.part l .tac "Symbol Table" (symbolLines (r.symbols.getD []))

/-- The three-address code. -/
def codePart (r : CompileResult) (l : Layout) : Text :=
  r.part l .tac "Three-Address Code" r.program.listing

/-- The control flow graph. -/
def graphPart (r : CompileResult) (l : Layout) : Text :=
  r.part l .cfg "Control Flow Graph" (r.graph.getD {}).listing

/-- The register allocation. -/
def allocationPart (r : CompileResult) (l : Layout) (steps : Bool) : Text :=
  r.part l .regalloc "Register Allocation" ((r.allocation.map (·.listing steps)).getD [])

/-- The machine code. -/
def machinePart (r : CompileResult) (l : Layout) : Text :=
  r.part l .cpu "CPU Code (Assembly-like)" r.machine.listing

/-- The output of the program, if it ran. -/
def outputPart (r : CompileResult) (l : Layout) : Text :=
  if r.stats.isSome then l.part "Program Output" r.output else []

/-- The source, ended by a newline. -/
def sourcePart (r : CompileResult) (l : Layout) : Text :=
  if l.quiet then []
  else
    let ending : Text := match r.file.content.getLast? with
      | none | some 10 => []
      | some _ => "\n"
    l.part "Compiling Program" (r.file.content ++ ending)

/-- How the compilation ended. -/
def verdict (r : CompileResult) (l : Layout) : Text :=
  if l.quiet then []
  else if r.bag.hasErrors then "\ncompilation failed\n"
  else if r.cached then "\ncompilation complete (cached)\n"
  else "\ncompilation complete\n"

/-- Everything that a build made, in the order of the stages. -/
def buildReport (r : CompileResult) (l : Layout) : Text :=
  r.sourcePart l ++ r.symbolsPart l ++ r.codePart l ++ r.graphPart l ++ r.allocationPart l false ++
    r.machinePart l ++ r.outputPart l ++ r.verdict l

/-! ### Times -/

/-- A time in milliseconds, after what was done. -/
def timeLine (done : Text) (time : Int) : Text :=
  done ++ " " ++ Decimal.fixed 1 (milliseconds time) ++ " ms\n"

/-- The times of the stages that ran. -/
def timesReport (r : CompileResult) : Text :=
  let fromStore : Text := match r.cached, r.times.get? .cache with
    | true, some time => timeLine "cache hit" time
    | _, _ => []
  fromStore ++ Stage.order.flatMap fun s =>
    match r.times.get? s with
    | some time => timeLine s.past time
    | none => []

/-! ### Documents -/

/-- Symbol table and three-address code as a document. -/
def codeJson (r : CompileResult) : Json :=
  .object [
    ("symbols", .array ((r.symbols.getD []).map Symbol.json)), ("instructions", r.program.json)]

/-- The findings of a bag as a document. -/
def findingsJson (files : FileSet) (bag : Bag) : Json :=
  jsonReport { positions := true, notes := true } files bag.items

/-- A field that is left out without a value. -/
def optionalField {α : Type} (key : Text) (v : Option α) (f : α → Json) : List (Text × Json) :=
  match v with
  | none => []
  | some v => [(key, f v)]

/-- A build as a document.  A file that could not be read has only findings. -/
def buildJson (name : Text) (files : FileSet) (bag : Bag) (result : Option CompileResult) : Json :=
  let r := result.getD {}
  .record [
    [("file", .string name)],
    Json.textField "reached" (stageName r.reached),
    [("cached", .bool r.cached)],
    Json.listField "symbols" ((r.symbols.getD []).map Symbol.json),
    Json.listField "threeAddressCode" (r.program.map Instr.json),
    optionalField "controlFlowGraph" r.graph Graph.json,
    optionalField "registerAllocation" r.allocation Allocation.json,
    Json.listField "cpuCode" (r.machine.map MachineInstr.json),
    Json.textField "output" r.output,
    optionalField "timings" r.report TimeReport.json,
    [("diagnostics", findingsJson files bag)]]

end CompileResult

/-! ### Directories -/

namespace DirectoryOutcome

/-- The line of a file in the summary. -/
def summaryLine (e : ProgressEvent) : Text :=
  Text.padFront 8 e.status.name ++ "  " ++ e.file ++ "  " ++
    Duration.text (Duration.round Duration.microsecond e.elapsed.toNat) ++ "\n"

/-- What became of the files of a directory. -/
def summary (o : DirectoryOutcome) : Text :=
  if o.entries.isEmpty then "no source files found\n"
  else
    let last := lastEvents o.events
    let shown := o.entries.filterMap fun e => last.find? (·.file == e.name)
    let count (s : Status) : Text := Text.ofNat (shown.countP (·.status == s))
    "\n" ++ shown.flatMap summaryLine ++ Text.ofNat o.entries.length ++ " files: " ++
      count .done ++ " done, " ++ count .cached ++ " cached, " ++ count .error ++ " failed\n"

/-- The builds of a directory as a document. -/
def json (o : DirectoryOutcome) : Json :=
  .array (o.entries.map fun e => CompileResult.buildJson e.name o.files e.bag e.result)

end DirectoryOutcome

/-! ### Samples -/

/-- The line around a program in a list. -/
def fence : Text := "```\n"

/-- The samples, numbered from one. -/
def samplesReport (l : Layout) : Text :=
  let sample (s : Sample) (n : Nat) : Text :=
    let body := (s.source.reverse.dropWhile (· == 10)).reverse
    "\n" ++ Text.ofNat (n + 1) ++ ". " ++ s.title ++ " (" ++ s.name ++ "):\n" ++ fence ++ body ++
      "\n" ++ fence
  l.part "Example Programs" (Sample.all.zipIdx.flatMap fun (s, n) => sample s n)

/-- The samples as a document. -/
def samplesJson : Json :=
  .array (Sample.all.map fun s =>
    .object [("Name", .string s.name), ("Title", .string s.title), ("Source", .string s.source)])

end ThreeAddress
