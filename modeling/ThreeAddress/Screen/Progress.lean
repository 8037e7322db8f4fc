import ThreeAddress.Pipeline.Stage
import ThreeAddress.Text.Duration
import ThreeAddress.Text.Width

/-!
# The progress of a build

A screen with a line for each file and a bar below.  The bar stays empty while its animation has
not begun, and is full when the build is done.
-/

namespace ThreeAddress

/-- The line of a file. -/
structure ProgressItem where
  file : Text
  label : Text := "queued"
  elapsed : Int := 0
deriving Repr

/-- A screen of a build. -/
structure ProgressScreen where
  title : Text
  items : List ProgressItem := []
  label : Text := []
  frame : Nat := 0
  width : Nat := 80
  isDone : Bool := false
deriving Repr

namespace ProgressScreen

/-- The screen at the beginning of a build. -/
def ofFiles (title : Text) (files : List Text) : ProgressScreen :=
  { title, items := files.map fun f => { file := f } }

/-- How an event is shown; an event without a label changes no label. -/
def labelOf (e : ProgressEvent) : Text :=
  match e.status with
  | .working => (e.stage.map Stage.label).getD []
  | .other _ => []
  | s => s.name

/-- The place of the last item of a file. -/
def placeOf? (s : ProgressScreen) (file : Text) : Option Nat :=
  (s.items.zipIdx.reverse.find? fun (i, _) => i.file == file).map (·.2)

/-- The item of a file after an event. -/
def itemAfter (i : ProgressItem) (e : ProgressEvent) : ProgressItem :=
  let label := labelOf e
  let i := if label.isEmpty then i else { i with label }
  if e.status.isTerminal then { i with elapsed := e.elapsed } else i

/-- The screen after an event.  An event without a file is about the whole build. -/
def take (s : ProgressScreen) (e : ProgressEvent) : ProgressScreen :=
  if e.file.isEmpty then
    if (labelOf e).isEmpty then s else { s with label := labelOf e }
  else match s.placeOf? e.file with
    | none => s
    | some n => { s with items := s.items.modify n (itemAfter · e) }

/-- The screen when no event can come any more. -/
def finish (s : ProgressScreen) : ProgressScreen := { s with isDone := true }

/-- The frames of the sign in front of the title. -/
def frames : List String := ["⣾ ", "⣽ ", "⣻ ", "⢿ ", "⡿ ", "⣟ ", "⣯ ", "⣷ "]

/-- The screen a moment later. -/
def tick (s : ProgressScreen) : ProgressScreen :=
  if s.isDone then s else { s with frame := (s.frame + 1) % frames.length }

/-- The screen in a window of another width. -/
def resize (s : ProgressScreen) (width : Int) : ProgressScreen :=
  if 0 < width then { s with width := width.toNat } else s

/-- The longest front of a text within so many columns. -/
def fitting (columns : Nat) : List Text → Text
  | [] => []
  | c :: rest =>
    let size := Text.clusterWidth c
    if columns < size then [] else c ++ fitting (columns - size) rest

/-- A name within so many columns, with dots for what is left out. -/
def shortened (columns : Nat) (name : Text) : Text :=
  if name.width ≤ columns then name else fitting (columns - 6) name.clusters ++ "..."

/-- The columns of a name. -/
def nameColumns (s : ProgressScreen) : Nat := max (s.width - 28) 20

/-- The line of a file. -/
def line (s : ProgressScreen) (i : ProgressItem) : Text :=
  let name := Text.padColumns s.nameColumns (shortened s.nameColumns i.file)
  let elapsed : Text :=
    if 0 < i.elapsed then
      " " ++ Text.padFront 10 (Duration.text (Duration.round Duration.microsecond i.elapsed.toNat))
    else []
  Text.trimEndBlanks ("  " ++ Text.padFront 12 i.label ++ " " ++ name ++ elapsed)

/-- The columns of the bar, percentage included. -/
def barColumns (s : ProgressScreen) : Nat := s.width - 4

/-- The bar. -/
def bar (s : ProgressScreen) : Text :=
  let cell : Text := if s.isDone then "█" else "░"
  let percentage : Text := if s.isDone then " 100%" else "   0%"
  (List.replicate (s.barColumns - 5) cell).flatten ++ percentage

/-- The title. -/
def header (s : ProgressScreen) : Text :=
  let title : Text := if s.label.isEmpty then s.title else s.title ++ " (" ++ s.label ++ ")"
  let sign : Text := if s.isDone then "done:" else (frames.getD s.frame "" : String)
  Text.block (sign ++ " " ++ title)

/-- The screen as text.  Without files there is nothing to show. -/
def view (s : ProgressScreen) : Text :=
  if s.items.isEmpty then []
  else Text.lines ([s.header, []] ++ s.items.map s.line ++ [[], s.bar])

end ProgressScreen

end ThreeAddress
