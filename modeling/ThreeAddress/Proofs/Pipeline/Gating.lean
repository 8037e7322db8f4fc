import ThreeAddress.Proofs.Pipeline.Failure

/-!
# Which stages run

The functions of the stages run one after another, up to the last one asked for or the first one
that fails.  `Executes` is a run of some of them, with whether each succeeded, and says nothing of
which ones they are; `Ran` ties it to what else is seen of a pipeline, the announcements and the
times.  The order of the stages, where they are cut off and what a failure prevents are statements
about the list of the stages executed.
-/

namespace ThreeAddress

namespace Pipeline

variable {o : CompileOptions}

/-- The functions of all stages, that of the run included. -/
def functions (o : CompileOptions) : List (Stage × Body) :=
  stages o ++ [(.run, body (Stage.running o))]

/-- From `p` to `q` the functions of the given stages run one after another; each comes with whether
it succeeded, and a stage that succeeds is the last one reached. -/
inductive Executes (o : CompileOptions) : Pipeline → List (Stage × Bool) → Pipeline → Prop
  | nothing {p : Pipeline} : Executes o p [] p
  | succeeded {p q : Pipeline} {stage : Stage} {f : Body} {es : List (Stage × Bool)}
    (hf : (stage, f) ∈ functions o) (hok : (f p).2.failed = false)
    (h : Executes o ((f p).1.reach stage) es q) : Executes o p ((stage, true) :: es) q
  | failed {p q : Pipeline} {stage : Stage} {f : Body} {es : List (Stage × Bool)}
    (hf : (stage, f) ∈ functions o) (hfail : (f p).2.failed = true)
    (h : Executes o (f p).1 es q) : Executes o p ((stage, false) :: es) q

theorem Executes.append {p q r : Pipeline} {es es' : List (Stage × Bool)} (h : Executes o p es q)
    (h' : Executes o q es' r) :
  Executes o p (es ++ es') r
  := by
  induction h with
  | nothing => exact h'
  | succeeded hf hok _ ih => exact .succeeded hf hok (ih h')
  | failed hf hfail _ ih => exact .failed hf hfail (ih h')

/-! ### What a stage leaves alone -/

namespace Executes

variable {p q : Pipeline} {es : List (Stage × Bool)}

end Executes

/-! ### What is seen of the stages -/

/-- What announces a stage of the file of the given name. -/
def working (name : Text) (e : Stage × Bool) : ProgressEvent :=
  { file := name, stage := some e.1, status := .working }

/-- From `p` to `q` the functions of the given stages run; each is announced, and a time is taken of
each, whether or not there is a timer. -/
structure Ran (o : CompileOptions) (p : Pipeline) (es : List (Stage × Bool)) (q : Pipeline) :
    Prop where
  executes : Executes o p.made es q.made
  name_eq : q.name = p.name
  timer_eq : q.timer.isSome = p.timer.isSome
  events_eq : q.events = p.events ++ es.map (working p.name)
  timed : ∀ stage, stage ∈ q.result.times.entries.map (·.1)
    ↔ stage ∈ p.result.times.entries.map (·.1) ∨ stage ∈ es.map (·.1)

theorem Ran.nothing (p : Pipeline) :
  Ran o p [] p
  := ⟨.nothing, rfl, rfl, (List.append_nil _).symm, fun stage => by simp⟩

theorem Ran.append {p q r : Pipeline} {es es' : List (Stage × Bool)} (h : Ran o p es q)
    (h' : Ran o q es' r) :
  Ran o p (es ++ es') r
  := by
  constructor
  · exact h.executes.append h'.executes
  · rw [h'.name_eq, h.name_eq]
  · rw [h'.timer_eq, h.timer_eq]
  · rw [h'.events_eq, h.events_eq, h.name_eq, List.map_append, List.append_assoc]
  · intro stage
    rw [h'.timed, h.timed, List.map_append, List.mem_append, or_assoc]

variable {σ : Type} {host : CompileHost (StateM σ)}

/-- Of the stages in order, one after another runs until one fails. -/
inductive Gated : List Stage → List (Stage × Bool) → Option Stop → Prop
  | nothing : Gated [] [] none
  | failed {s : Stage} {ss : List Stage} : Gated (s :: ss) [(s, false)] (some .stageFailed)
  | succeeded {s : Stage} {ss : List Stage} {es : List (Stage × Bool)} {stop : Option Stop}
    (h : Gated ss es stop) : Gated (s :: ss) ((s, true) :: es) stop

/-- Where the stages before the run are cut off: at the last one asked for, or at the parser if a
run needs the tree. -/
def cut (o : CompileOptions) : Int :=
  if o.run then max (lastStage o).place Stage.parse.place else (lastStage o).place

/-- The stages before the run that are asked for, in order. -/
def wanted (o : CompileOptions) : List Stage :=
  [Stage.lex, .parse, .tac, .cfg, .regalloc, .cpu].take (cut o + 1).toNat

namespace Gated

variable {wanted : List Stage} {es : List (Stage × Bool)} {stop : Option Stop}

/-- Only the last one can fail. -/
theorem pairwise (h : Gated wanted es stop) :
  es.Pairwise fun e _ => e.2 = true
  := by
  induction h with
  | nothing => apply List.Pairwise.nil
  | failed => apply List.pairwise_singleton
  | succeeded _ ih => exact List.pairwise_cons.mpr ⟨fun _ _ => rfl, ih⟩

end Gated

/-- The stages before the run are the first of those asked for, in order, and they are all of them
unless one fails; the run follows exactly if it is asked for and all of them succeeded; and no stage
follows one that failed. -/
structure GatedPrefix (o : CompileOptions) (es : List (Stage × Bool)) : Prop where
  split : ∃ before last, es = before ++ last
    ∧ before.map (·.1) <+: wanted o
    ∧ (before.map (·.1) ≠ wanted o → ∃ e ∈ before, e.2 = false)
    ∧ (last = [] ∨ ∃ ok, last = [(.run, ok)])
    ∧ (last ≠ [] ↔ o.run = true ∧ before.map (·.1) = wanted o ∧ ∀ e ∈ before, e.2 = true)
  gated : es.Pairwise fun e _ => e.2 = true

end Pipeline

/-- What an outcome tells of the stages that were executed.  They are a gated prefix, and each is
timed and announced, before it is announced how the file ends. -/
structure CompileOutcome.Shows (c : CompileOutcome) (o : CompileOptions) (name : Text)
    (es : List (Stage × Bool)) : Prop where
  gated : Pipeline.GatedPrefix o es
  reached : c.result.reached = (es.filter (·.2)).getLast?.map (·.1)
  program : (.tac, true) ∉ es → c.result.program = []
  graph : (.cfg, true) ∉ es → c.result.graph = none
  allocation : (.regalloc, true) ∉ es → c.result.allocation = none
  machine : (.cpu, true) ∉ es → c.result.machine = []
  timed : ∀ stage, stage ∈ c.result.times.entries.map (·.1) ↔ stage ∈ es.map (·.1)
  events : ∃ status elapsed, c.events = es.map (Pipeline.working name)
      ++ [{ file := name, stage := c.result.reached, status, elapsed }]
    ∧ status.isTerminal = true ∧ (status = .error ↔ c.result.bag.hasErrors = true)

end ThreeAddress
