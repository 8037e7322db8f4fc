import ThreeAddress.Text.Basic

/-!
# Stages

The stages of compilation in their order, the status of a file on its way through them, and the
time that each stage took.
-/

namespace ThreeAddress

/-- A stage.  The lookup of stored artifacts comes before any other stage and is none of the
pipeline's own. -/
inductive Stage where
  | lex | parse | tac | cfg | regalloc | cpu | run
  | cache
  | other (name : Text)
deriving DecidableEq, Repr, Inhabited

namespace Stage

/-- The stages of the pipeline in order. -/
def order : List Stage := [lex, parse, tac, cfg, regalloc, cpu, run]

/-- The name of a stage. -/
def name : Stage → Text
  | lex => "lex"
  | parse => "parse"
  | tac => "tac"
  | cfg => "cfg"
  | regalloc => "regalloc"
  | cpu => "cpu"
  | run => "run"
  | cache => "cache"
  | other t => t

/-- The stage of a name. -/
def ofName (t : Text) : Stage := ((order ++ [cache]).find? (·.name == t)).getD (other t)

/-- The place of a stage in the order, -1 for one that is not in it. -/
def place (s : Stage) : Int :=
  match order.idxOf? s with
  | some n => n
  | none => -1

/-- How far along the pipeline a stage is. -/
def fraction (s : Stage) : Float :=
  match order.idxOf? s with
  | some n => (n + 1).toFloat / (order.length + 1).toFloat
  | none => 0

/-- What a file is doing in a stage. -/
def label : Stage → Text
  | lex => "lexing"
  | parse => "parsing"
  | tac => "lowering"
  | cfg => "cfg"
  | regalloc => "allocating"
  | cpu => "emitting"
  | run => "running"
  | cache => "cache"
  | other _ => ""

/-- What was done in a stage. -/
def past : Stage → Text
  | lex => "lexed"
  | parse => "parsed"
  | tac => "lowered"
  | cfg => "cfg built"
  | regalloc => "allocated"
  | cpu => "emitted"
  | run => "ran"
  | cache | other _ => ""

end Stage

/-- The name of a stage that may not have been reached. -/
def stageName : Option Stage → Text
  | none => []
  | some s => s.name

/-- The stage of a name; an empty name is no stage. -/
def stageOfName? (t : Text) : Option Stage := if t.isEmpty then none else some (.ofName t)

/-- The status of a file. -/
inductive Status where
  | queued | working | cached | done | error
  | other (name : Text)
deriving DecidableEq, Repr, Inhabited

namespace Status

/-- The name of a status. -/
def name : Status → Text
  | queued => "queued"
  | working => "working"
  | cached => "cached"
  | done => "done"
  | error => "error"
  | other t => t

/-- The status of a name. -/
def ofName (t : Text) : Status :=
  ([queued, working, cached, done, error].find? (·.name == t)).getD (other t)

/-- Whether nothing more happens to the file. -/
def isTerminal : Status → Bool
  | cached | done | error => true
  | _ => false

end Status

/-- Something that happened to a file; without a file, to the whole build.  Times are in
nanoseconds. -/
structure ProgressEvent where
  file : Text
  stage : Option Stage := none
  status : Status
  error : Option Text := none
  elapsed : Int := 0
deriving Repr

/-- The last thing that happened to each file that is finished. -/
def lastEvents (es : List ProgressEvent) : List ProgressEvent :=
  let finished := es.filter fun e => !e.file.isEmpty && e.status.isTerminal
  finished.foldl (fun acc e =>
    if acc.any (·.file == e.file) then acc.map fun x => if x.file == e.file then e else x
    else acc ++ [e]) []

/-- The times that stages took. -/
structure StageTimes where
  entries : List (Stage × Int) := []
deriving Repr, Inhabited

namespace StageTimes

/-- Sets the time of a stage. -/
def set (t : StageTimes) (s : Stage) (time : Int) : StageTimes :=
  ⟨(s, time) :: t.entries.filter (·.1 != s)⟩

/-- The time of a stage that has one. -/
def get? (t : StageTimes) (s : Stage) : Option Int := t.entries.lookup s

/-- The time of a stage, zero if it has none. -/
def get (t : StageTimes) (s : Stage) : Int := (t.get? s).getD 0

/-- The sum over some stages, as often as they are listed; over the whole pipeline if none is. -/
def sum (t : StageTimes) (stages : List Stage) : Int :=
  ((if stages.isEmpty then Stage.order else stages).map t.get).foldl (· + ·) 0

end StageTimes

end ThreeAddress
