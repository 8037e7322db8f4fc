import ThreeAddress.Decimal.Fixed
import ThreeAddress.Decimal.Shortest
import ThreeAddress.Json
import ThreeAddress.Text.Utf8

/-!
# Timers

A timer records phases by the readings of a clock, in nanoseconds, and reports them in
milliseconds.
-/

namespace ThreeAddress

/-- A phase.  Its time is zero until it is ended, and may be set anew. -/
structure Phase where
  name : Text
  start : Int
  time : Int := 0
  note : Text := []
deriving Repr

/-- A timer: phases in the order in which they were begun. -/
abbrev PhaseTimer := List Phase

namespace PhaseTimer

/-- Begins a phase; its number is the number of phases before it. -/
def start (t : PhaseTimer) (name : Text) (now : Int) : PhaseTimer × Nat :=
  (t ++ [{ name, start := now }], t.length)

/-- Ends a phase; a number that no phase has is ignored. -/
def stop (t : PhaseTimer) (n : Int) (note : Text) (now : Int) : PhaseTimer :=
  if n < 0 then t
  else t.zipIdx.map fun (p, i) =>
    if i = n.toNat then { p with time := now - p.start, note } else p

end PhaseTimer

/-- Nanoseconds as milliseconds. -/
def milliseconds (time : Int) : Float := Float.ofInt time / 1000000

/-- A phase as reported. -/
structure PhaseReport where
  name : Text
  time : Float
  note : Text
deriving Repr

/-- The phases of a timer and the sum of their times, in milliseconds. -/
structure TimeReport where
  total : Float := 0
  phases : List PhaseReport := []
deriving Repr

namespace TimeReport

/-- The report of a timer. -/
def ofTimer (t : PhaseTimer) : TimeReport :=
  { total := milliseconds ((t.map (·.time)).foldl (· + ·) 0)
    phases := t.map fun p => ⟨p.name, milliseconds p.time, p.note⟩ }

/-- A line of the summary. -/
def line (name : Text) (time : Float) : Text :=
  "  " ++ Text.padEnd 12 name ++ " " ++ Text.padStart 8 (Decimal.fixed 3 time) ++ " ms"

/-- The report as lines. -/
def summary (r : TimeReport) : Text :=
  let phase (p : PhaseReport) : Text :=
    let note : Text := if p.note.isEmpty then [] else "  // " ++ p.note
    line p.name p.time ++ note
  let header : Text := "timings:"
  Text.lines (header :: r.phases.map phase ++ [line "total" r.total])

/-- A number of milliseconds. -/
def number (x : Float) : Json := .number (Decimal.ofFloat x)

/-- The object of a phase. -/
def phaseJson (p : PhaseReport) : Json :=
  .record [[("name", .string p.name), ("duration_ms", number p.time)], Json.textField "note" p.note]

/-- The phases as an array; without phases it is absent. -/
def phasesJson (r : TimeReport) : Json := .arrayOrNull (r.phases.map phaseJson)

/-- The object of a report. -/
def json (r : TimeReport) : Json :=
  .object [("total_ms", number r.total), ("phases", r.phasesJson)]

end TimeReport

end ThreeAddress
