import ThreeAddress.Pipeline.Compile
import ThreeAddress.Proofs.Flow.ControlFlow

/-!
# What a pipeline makes

Around every stage stand the clock, the trace, the timer and the announcements.  None of them has a
part in what is made: `Pipeline.made` forgets them, and `advance` is the run of the stages without
them.
-/

namespace ThreeAddress

/-- The finding about a variable without a register. -/
def Allocation.spillFinding (a : Allocation) (span : Span) (name : Text) : Diagnostic :=
  { severity := .info, code := .spilled, span
    message := "variable '" ++ name ++ "' spilled: all " ++ Text.ofNat a.file.length ++
      " registers in use" }

/-- The finding about a jump that leads nowhere. -/
def DanglingJump.finding (span : Span) (d : DanglingJump) : Diagnostic :=
  { severity := .warning, code := .danglingJump, span, message := d.message
    notes := [⟨span, "block " ++ d.block ++ ", instruction " ++ Text.ofInt d.instr⟩] }

/-- The finding about a fault. -/
def Fault.finding (f : Fault) : Diagnostic :=
  { Diagnostic.error f.cause.code f.span f.cause.message with
    notes := f.backtrace.map fun c => ⟨c.span, "in call to " ++ c.func⟩ }

namespace CompileResult

/-- The result without the times of its stages. -/
def timeless (r : CompileResult) : CompileResult := { r with times := {}, report := none }

/-- Findings that depend on the file only are added to the bag one by one. -/
theorem foldl_add {α : Type} (d : Span → α → Diagnostic) (xs : List α) (r : CompileResult) :
  xs.foldl (fun r x => r.add (d r.fileSpan x)) r
    = { r with bag := r.bag.addAll (xs.map (d r.fileSpan)) }
  := by
  induction xs generalizing r with
  | nil => rfl
  | cons x xs ih =>
      rw [List.foldl_cons, ih]
      rfl

theorem reportSpills_of_some {r : CompileResult} {a : Allocation} (h : r.allocation = some a) :
  r.reportSpills = { r with bag := r.bag.addAll (a.spilled.map (a.spillFinding r.fileSpan)) }
  := by
  unfold reportSpills
  split
  · next hnone =>
    rw [h] at hnone
    cases hnone
  · next a' hsome =>
    rw [h] at hsome
    cases hsome
    apply foldl_add a.spillFinding

theorem reportDangling_of_some {r : CompileResult} {g : Graph} (h : r.graph = some g) :
  r.reportDangling
    = { r with bag := r.bag.addAll (g.dangling.map (DanglingJump.finding r.fileSpan)) }
  := by
  unfold reportDangling
  split
  · next hnone =>
    rw [h] at hnone
    cases hnone
  · next g' hsome =>
    rw [h] at hsome
    cases hsome
    apply foldl_add DanglingJump.finding

/-- The statements of the tree, none if there is no tree. -/
def statements (r : CompileResult) : List Stmt := (r.tree.map Tree.statements).getD []

end CompileResult

/-! ### What a stage makes -/

namespace Stage

variable {r : CompileResult}

theorem generating_of_error {e : GenError} {table : SymbolTable}
    (h : generate r.statements {} = (.error e, table)) :
  generating r
    = ({ r with symbols := some table.symbols }.add (.error e.code e.span e.message),
      { failed := true }, table)
  := by
  rw [CompileResult.statements] at h
  rw [generating]
  dsimp only
  rw [h]

theorem generating_of_problem {p : Program} {table : SymbolTable} {problem : Text}
    (h : generate r.statements {} = (.ok p, table)) (hcheck : p.check? = some problem) :
  generating r
    = ({ r with symbols := some table.symbols }.internalError .malformedNode
        "generated code failed validation" problem, { failed := true }, table)
  := by
  rw [CompileResult.statements] at h
  rw [generating]
  dsimp only
  rw [h]
  dsimp only
  rw [hcheck]

theorem generating_of_ok {p : Program} {table : SymbolTable}
    (h : generate r.statements {} = (.ok p, table)) (hcheck : p.check? = none) :
  generating r
    = ({ r with symbols := some table.symbols, program := p },
      { counts := [("instrs", p.length), ("symbols", table.symbols.length)]
        note := Text.ofNat p.length ++ " instructions" },
      table)
  := by
  rw [CompileResult.statements] at h
  rw [generating]
  dsimp only
  rw [h]
  dsimp only
  rw [hcheck]

/-- The graph of blocks always passes its check. -/
theorem graphing_eq (r : CompileResult) :
  graphing r
    = ({ r with
          graph := some (Graph.build r.program)
          bag := r.bag.addAll
            ((Graph.build r.program).dangling.map (DanglingJump.finding r.fileSpan)) },
        { counts := [("blocks", (Graph.build r.program).order.length),
            ("edges", (Graph.build r.program).edges.length)]
          note := Text.ofNat (Graph.build r.program).order.length ++ " blocks" })
  := by
  rw [graphing, (Graph.controlFlow_build r.program).check?_eq_none,
    CompileResult.reportDangling_of_some rfl]
  rfl

theorem allocating_eq (o : CompileOptions) (r : CompileResult) :
  allocating o r
    = let a := Allocation.ofProgram o.registers r.graph r.program
      ({ r with
          allocation := some a, bag := r.bag.addAll (a.spilled.map (a.spillFinding r.fileSpan)) },
        { counts := [("nodes", a.graph.nodes.length), ("spilled", a.spilled.length)]
          note := Text.ofNat a.spilled.length ++ " spilled" })
  := by
  rw [allocating, CompileResult.reportSpills_of_some rfl]
  rfl

theorem emitting_of_ok {table : SymbolTable} {machine : MachineCode}
    (h : r.program.lower table = .ok machine) :
  emitting table r = ({ r with machine }, { counts := [("instrs", machine.length)] })
  := by
  rw [emitting, h]

theorem emitting_of_error {table : SymbolTable} {e : LowerError}
    (h : r.program.lower table = .error e) :
  emitting table r
    = (r.internalError .malformedNode "cannot lower to CPU code" e.message, { failed := true })
  := by
  rw [emitting, h]

/-- The run that is asked for. -/
def ran (o : CompileOptions) (r : CompileResult) : RunResult :=
  runProgram (.ofRequest o.maxSteps o.maxDepth o.cancelled) r.statements

theorem running_of_none {o : CompileOptions} (h : (ran o r).fault = none) :
  running o r
    = ({ r with stats := some (ran o r).stats, output := (ran o r).output },
      { counts := [("steps", (ran o r).stats.steps), ("calls", (ran o r).stats.calls)]
        note := Text.ofNat (ran o r).stats.steps ++ " steps" })
  := by
  have hran := h
  rw [ran, CompileResult.statements] at hran
  rw [running]
  dsimp only
  rw [hran]
  rfl

theorem running_of_some {o : CompileOptions} {f : Fault} (h : (ran o r).fault = some f) :
  running o r
    = ({ r with stats := some (ran o r).stats, output := (ran o r).output }.add f.finding,
      { counts := [("steps", (ran o r).stats.steps), ("calls", (ran o r).stats.calls)]
        note := Text.ofNat (ran o r).stats.steps ++ " steps", failed := true })
  := by
  have hran := h
  rw [ran, CompileResult.statements] at hran
  rw [running]
  dsimp only
  rw [hran]
  rfl

end Stage

/-- Usable artifacts have a graph and an allocation. -/
theorem Artifacts.exists_of_isUsable (a : Artifacts) (h : a.isUsable = true) :
  ∃ g alloc, a.graph = some g ∧ a.allocation = some alloc
  := by
  simp only [isUsable, Bool.and_eq_true, Option.isSome_iff_exists] at h
  obtain ⟨⟨-, g, hg⟩, alloc, halloc⟩ := h
  exact ⟨g, alloc, hg, halloc⟩

namespace Pipeline

/-- The pipeline without clock, trace, timer and announcements. -/
def made (p : Pipeline) : Pipeline := { result := p.result.timeless, table := p.table }

/-- The stage has to do only with what is made. -/
structure Plain (f : Body) : Prop where
  made : ∀ p, f p.made = ((f p).1.made, (f p).2)
  timer : ∀ p, (f p).1.timer = p.timer

theorem plain_body {g : CompileResult → CompileResult × StageReport}
    (h : ∀ r, g r.timeless = ((g r).1.timeless, (g r).2)) :
  Plain (body g)
  := by
  refine ⟨fun p => ?_, fun _ => rfl⟩
  have hg : g p.made.result = _ := h p.result
  rw [body, body, hg]
  rfl

theorem plain_lexing :
  Plain (body Stage.lexing)
  := plain_body fun _ => rfl

theorem plain_parsing (o : CompileOptions) :
  Plain (body (Stage.parsing o))
  := plain_body fun _ => rfl

theorem plain_generating :
  Plain fun p =>
    let (result, report, table) := Stage.generating p.result
    ({ p with result, table }, report)
  := by
  refine ⟨fun p => ?_, fun _ => rfl⟩
  dsimp only
  rcases h : generate p.result.statements {} with ⟨e | program, table⟩
  · rw [Stage.generating_of_error h, Stage.generating_of_error (r := p.made.result) h]
    rfl
  · cases hcheck : program.check? with
    | none =>
        rw [Stage.generating_of_ok h hcheck, Stage.generating_of_ok (r := p.made.result) h hcheck]
        rfl
    | some problem =>
        rw [Stage.generating_of_problem h hcheck,
          Stage.generating_of_problem (r := p.made.result) h hcheck]
        rfl

theorem plain_graphing :
  Plain (body Stage.graphing)
  := by
  apply plain_body
  intro r
  rw [Stage.graphing_eq, Stage.graphing_eq]
  rfl

theorem plain_allocating (o : CompileOptions) :
  Plain (body (Stage.allocating o))
  := by
  apply plain_body
  intro r
  rw [Stage.allocating_eq, Stage.allocating_eq]
  rfl

theorem plain_emitting :
  Plain fun p => body (Stage.emitting p.table) p
  := by
  refine ⟨fun p => ?_, fun _ => rfl⟩
  apply (plain_body (g := Stage.emitting p.table) _).made
  intro r
  cases h : r.program.lower p.table with
  | error e =>
      rw [Stage.emitting_of_error h, Stage.emitting_of_error (r := r.timeless) h]
      rfl
  | ok machine =>
      rw [Stage.emitting_of_ok h, Stage.emitting_of_ok (r := r.timeless) h]
      rfl

theorem plain_running (o : CompileOptions) :
  Plain (body (Stage.running o))
  := by
  apply plain_body
  intro r
  cases h : (Stage.ran o r).fault with
  | none =>
      rw [Stage.running_of_none h, Stage.running_of_none (r := r.timeless) h]
      rfl
  | some f =>
      rw [Stage.running_of_some h, Stage.running_of_some (r := r.timeless) h]
      rfl

/-- Every stage has to do only with what is made. -/
theorem plain_of_mem_stages {o : CompileOptions} {stage : Stage} {f : Body}
    (h : (stage, f) ∈ stages o) :
  Plain f
  := by
  simp only [stages, List.mem_cons, List.not_mem_nil, or_false, Prod.mk.injEq] at h
  obtain ⟨-, rfl⟩ | ⟨-, rfl⟩ | ⟨-, rfl⟩ | ⟨-, rfl⟩ | ⟨-, rfl⟩ | ⟨-, rfl⟩ := h
  · apply plain_lexing
  · apply plain_parsing
  · apply plain_generating
  · apply plain_graphing
  · apply plain_allocating
  · apply plain_emitting

/-! ### Runs without clock and trace -/

/-- Takes a stage as the last one reached. -/
def reach (p : Pipeline) (stage : Stage) : Pipeline :=
  { p with result := { p.result with reached := some stage } }

/-- A stage alone. -/
def advance (o : CompileOptions) (stage : Stage) (f : Body) (p : Pipeline) :
    Pipeline × Option Stop :=
  if o.cancelled then (p, some .cancelled)
  else if (f p).2.failed then ((f p).1, some .stageFailed)
  else ((f p).1.reach stage, none)

/-- Stages one after another, as long as they are wanted and succeed. -/
def advanceAll (o : CompileOptions) : List (Stage × Body) → Pipeline → Pipeline × Option Stop
  | [], p => (p, none)
  | (stage, f) :: rest, p =>
    if wants o stage then
      match advance o stage f p with
      | (p, none) => advanceAll o rest p
      | (p, some stop) => (p, some stop)
    else (p, none)

/-- All stages, and the run if there is to be one. -/
def advanceRun (o : CompileOptions) (p : Pipeline) : Pipeline × Option Stop :=
  match advanceAll o (stages o) p with
  | (p, some stop) => (p, some stop)
  | (p, none) => if o.run then advance o .run (body (Stage.running o)) p else (p, none)

theorem advanceRun_of_run_eq_false {o : CompileOptions} (h : o.run = false) (p : Pipeline) :
  advanceRun o p = advanceAll o (stages o) p
  := by
  rw [advanceRun, h]
  rcases advanceAll o (stages o) p with ⟨q, _ | stop⟩
  · rfl
  · rfl

end Pipeline

variable {σ : Type}

/-- A property of the host's state that a compilation keeps, if all that it stores is `good`; and
then all that it finds is `good`. -/
structure CompileHost.Keeps (host : CompileHost (StateM σ)) (kept : σ → Prop)
    (good : Digest → Artifacts → Prop) : Prop where
  now : ∀ s, kept s → kept (host.now.run s).2
  get : ∀ store ∈ host.store, ∀ key s, kept s → kept ((store.get key).run s).2
  found : ∀ store ∈ host.store, ∀ key s a, kept s → ((store.get key).run s).1 = .found a →
    good key a
  put : ∀ store ∈ host.store, ∀ key s a, kept s → good key a → kept ((store.put key a).run s).2

/-- Without a store nothing is found. -/
theorem CompileHost.keeps_of_none {host : CompileHost (StateM σ)} (h : host.store = none) :
  host.Keeps (fun _ => True) (fun _ _ => False)
  := by
  refine ⟨fun _ _ => trivial, ?_, ?_, ?_⟩
  · rw [h]
    intro store hstore
    cases hstore
  · rw [h]
    intro store hstore
    cases hstore
  · rw [h]
    intro store hstore
    cases hstore

/-- Of any store nothing is known. -/
theorem CompileHost.keeps_true (host : CompileHost (StateM σ)) :
  host.Keeps (fun _ => True) (fun _ _ => True)
  := ⟨fun _ _ => trivial, fun _ _ _ _ _ => trivial, fun _ _ _ _ _ _ _ => trivial,
    fun _ _ _ _ _ _ _ => trivial⟩

namespace Pipeline

variable {host : CompileHost (StateM σ)} {o : CompileOptions} {kept : σ → Prop}
  {good : Digest → Artifacts → Prop}

/-- A timer with a phase begun, and the number of the phase. -/
def beginPhase (timer : Option PhaseTimer) (stage : Stage) (began : Int) :
    Option PhaseTimer × Nat :=
  match timer with
  | none => (none, 0)
  | some t => (some (t.start stage.name began).1, (t.start stage.name began).2)

/-- A stage that is announced, traced and timed. -/
def opened (p : Pipeline) (stage : Stage) (began : Int) : Pipeline :=
  { ((p.announce stage .working none 0).openSpan began stage.name).1 with
    timer := (beginPhase p.timer stage began).1 }

/-- A stage that has ended. -/
def closed (p : Pipeline) (stage : Stage) (report : StageReport) (began ended : Int) (phase : Nat)
    (span : TraceSpan) : Pipeline :=
  let stop := if report.failed then some Stop.stageFailed else none
  let p := { p with
    timer := p.timer.map (PhaseTimer.stop · phase report.note ended)
    result := { p.result with
      times := p.result.times.set stage (ended - began)
      reached := if report.failed then p.result.reached else some stage } }
  let counts := report.counts.map fun (k, n) => (k, Text.ofNat n)
  p.closeSpan ended span counts ((stop.map Stop.message).getD "ok")

/-- A stage between its two readings of the clock. -/
theorem runStage_eq {stage : Stage} {f : Body} (hcancel : o.cancelled = false) (p : Pipeline)
    (s : σ) :
  let t := host.now.run s
  let u := host.now.run t.2
  let q := f (opened p stage t.1)
  ∃ phase span, (runStage host o stage f p).run s
    = ((closed q.1 stage q.2 t.1 u.1 phase span,
        if q.2.failed then some .stageFailed else none), u.2)
  := by
  rw [runStage, hcancel, if_neg (by simp)]
  exact ⟨(beginPhase p.timer stage (host.now.run s).1).2,
    ((p.announce stage .working none 0).openSpan (host.now.run s).1 stage.name).2, rfl⟩

theorem made_closed (p : Pipeline) (stage : Stage) (report : StageReport) (began ended : Int)
    (phase : Nat) (span : TraceSpan) :
  (closed p stage report began ended phase span).made
    = if report.failed then p.made else p.made.reach stage
  := by
  obtain ⟨counts, note, failed⟩ := report
  cases failed with
  | true => rfl
  | false => rfl

theorem isSome_timer_closed (p : Pipeline) (stage : Stage) (report : StageReport)
    (began ended : Int) (phase : Nat) (span : TraceSpan) :
  (closed p stage report began ended phase span).timer.isSome = p.timer.isSome
  := Option.isSome_map ..

theorem isSome_timer_opened (p : Pipeline) (stage : Stage) (began : Int) :
  (opened p stage began).timer.isSome = p.timer.isSome
  := by
  change (beginPhase p.timer stage began).1.isSome = _
  cases p.timer with
  | none => rfl
  | some t => rfl

/-- A run ends with what `q` made and why it stopped, timed or not, in a state that is kept. -/
structure Yields (kept : σ → Prop) (timed : Bool) (q : Pipeline × Option Stop)
    (r : (Pipeline × Option Stop) × σ) : Prop where
  made : r.1.1.made = q.1
  stop : r.1.2 = q.2
  timer : r.1.1.timer.isSome = timed
  kept : kept r.2

/-- Clock, trace, timer and announcements have no part in what a stage makes. -/
theorem yields_runStage (hk : host.Keeps kept good) {stage : Stage} {f : Body} (hf : Plain f)
    (p : Pipeline) {s : σ} (hs : kept s) :
  Yields kept p.timer.isSome (advance o stage f p.made) ((runStage host o stage f p).run s)
  := by
  cases hcancel : o.cancelled with
  | true =>
      rw [runStage, advance, hcancel]
      exact ⟨rfl, rfl, rfl, hs⟩
  | false =>
      obtain ⟨phase, span, hrun⟩ : ∃ phase span, (runStage host o stage f p).run s = _ :=
        runStage_eq hcancel p s
      have hmade : f p.made = _ := hf.made (opened p stage (host.now.run s).1)
      rw [hrun, advance, hcancel, if_neg (by simp), hmade]
      refine ⟨?_, ?_, ?_, hk.now _ (hk.now _ hs)⟩
      · rw [made_closed]
        split
        · rfl
        · rfl
      · dsimp only
        split
        · rfl
        · rfl
      · rw [isSome_timer_closed, hf.timer, isSome_timer_opened]

/-- The same for stages one after another. -/
theorem yields_runStages (hk : host.Keeps kept good) {fs : List (Stage × Body)}
    (hfs : ∀ x ∈ fs, Plain x.2) (p : Pipeline) {s : σ} (hs : kept s) :
  Yields kept p.timer.isSome (advanceAll o fs p.made) ((runStages host o fs p).run s)
  := by
  induction fs generalizing p s with
  | nil => exact ⟨rfl, rfl, rfl, hs⟩
  | cons x fs ih =>
      obtain ⟨stage, f⟩ := x
      obtain ⟨hf, hfs⟩ := List.forall_mem_cons.mp hfs
      rw [runStages, advanceAll]
      split
      · have hstage : Yields kept _ _ ((runStage host o stage f p).run s) :=
          yields_runStage hk hf p hs
        rw [StateT.run_bind]
        rcases hrun : (runStage host o stage f p).run s with ⟨⟨p₁, stop⟩, s₁⟩
        rw [hrun] at hstage
        obtain ⟨hmade, rfl, htimer, hs₁⟩ := hstage
        dsimp only at hmade htimer
        rcases hadvance : advance o stage f p.made with ⟨q, _ | stop⟩
        · rw [hadvance] at hmade
          obtain rfl : p₁.made = q := hmade
          rw [← htimer]
          exact ih hfs p₁ hs₁
        · rw [hadvance] at hmade
          exact ⟨hmade, rfl, htimer, hs₁⟩
      · exact ⟨rfl, rfl, rfl, hs⟩

/-! ### The store -/

/-- What a pipeline takes over, and the findings that it makes of it. -/
theorem takeOver_eq (p : Pipeline) {a : Artifacts} {g : Graph} {alloc : Allocation}
    (hg : a.graph = some g) (halloc : a.allocation = some alloc) :
  p.takeOver a
    = { p with
        result := { p.result with
          symbols := a.symbols, program := a.program, graph := a.graph
          allocation := a.allocation, machine := a.machine, cached := true, reached := some .cpu
          bag := (p.result.bag.addAll
              (g.dangling.map (DanglingJump.finding p.result.fileSpan))).addAll
            (alloc.spilled.map (alloc.spillFinding p.result.fileSpan)) } }
  := by
  rw [takeOver, CompileResult.reportDangling_of_some hg, CompileResult.reportSpills_of_some halloc]
  rfl

theorem made_takeOver (p : Pipeline) {a : Artifacts} (h : a.isUsable = true) :
  (p.takeOver a).made = p.made.takeOver a
  := by
  obtain ⟨g, alloc, hg, halloc⟩ := a.exists_of_isUsable h
  rw [takeOver_eq p hg halloc, takeOver_eq p.made hg halloc]
  rfl

theorem cached_takeOver (p : Pipeline) {a : Artifacts} (h : a.isUsable = true) :
  (p.takeOver a).result.cached = true
  := by
  obtain ⟨g, alloc, hg, halloc⟩ := a.exists_of_isUsable h
  rw [takeOver_eq p hg halloc]

/-- A pipeline with the answer of a store. -/
def answered (p : Pipeline) (answer : StoreAnswer) (began ended : Int) : Pipeline :=
  let (p, span) := p.openSpan began Stage.cache.name
  match answer with
  | .unreadable message => p.closeSpan ended span [] ("unreadable: " ++ message)
  | .missing => p.closeSpan ended span [] "miss"
  | .found a =>
    if a.isUsable then
      let p := p.takeOver a
      let times := p.result.times.set .cache (ended - began)
      { p with result := { p.result with times } }.closeSpan ended span [] "hit"
    else p.closeSpan ended span [] "miss"

/-- The look into a store stands between two readings of the clock. -/
theorem restore_eq {store : ArtifactStore (StateM σ)} (hstore : host.store = some store)
    (hwanted : ¬ (o.run || (lastStage o).place < Stage.tac.place)) (p : Pipeline) (s : σ) :
  let t := host.now.run s
  let answer := (store.get (p.key o)).run t.2
  let u := host.now.run answer.2
  (p.restore host o).run s = (p.answered answer.1 t.1 u.1, u.2)
  := by
  intro t answer u
  rw [restore, hstore]
  dsimp only
  rw [if_neg hwanted]
  change ((match answer.1 with
    | .unreadable message => _
    | .missing => _
    | .found a => _ : StateM σ Pipeline).run u.2) = _
  rw [answered]
  cases answer.1 with
  | missing => rfl
  | unreadable message => rfl
  | found a =>
      dsimp only
      split
      · rfl
      · rfl

/-- A pipeline after the look into the store. -/
structure Restores (kept : σ → Prop) (good : Digest → Artifacts → Prop) (o : CompileOptions)
    (p : Pipeline) (r : Pipeline × σ) : Prop where
  made : r.1.made = p.made ∨
    ∃ a, good (p.key o) a ∧ a.isUsable = true ∧ o.run = false ∧ r.1.made = p.made.takeOver a
  timer : r.1.timer.isSome = p.timer.isSome
  kept : kept r.2

theorem restores_restore (hk : host.Keeps kept good) (p : Pipeline) {s : σ} (hs : kept s) :
  Restores kept good o p ((p.restore host o).run s)
  := by
  cases hstore : host.store with
  | none =>
      rw [restore, hstore]
      exact ⟨.inl rfl, rfl, hs⟩
  | some store =>
      by_cases hwanted : o.run || (lastStage o).place < Stage.tac.place
      · rw [restore, hstore]
        dsimp only
        rw [if_pos hwanted]
        exact ⟨.inl rfl, rfl, hs⟩
      · rw [restore_eq hstore hwanted]
        have hs₁ := hk.now s hs
        have hfound := fun a => hk.found store hstore (p.key o) (host.now.run s).2 a hs₁
        have hs₃ := hk.now _ (hk.get store hstore (p.key o) _ hs₁)
        rw [answered]
        rcases hanswer : ((store.get (p.key o)).run (host.now.run s).2).1 with _ | message | a
        · exact ⟨.inl rfl, rfl, hs₃⟩
        · exact ⟨.inl rfl, rfl, hs₃⟩
        · dsimp only
          split
          · next husable =>
            refine ⟨.inr ⟨a, hfound a hanswer, husable, ?_, ?_⟩, rfl, hs₃⟩
            · simp only [Bool.or_eq_true, not_or, Bool.not_eq_true] at hwanted
              exact hwanted.1
            · exact made_takeOver p husable
          · exact ⟨.inl rfl, rfl, hs₃⟩

/-- What is stored is what was made, and nothing is made by storing it. -/
structure Saves (kept : σ → Prop) (p : Pipeline) (r : Pipeline × σ) : Prop where
  made : r.1.made = p.made
  timer : r.1.timer.isSome = p.timer.isSome
  kept : kept r.2

theorem saves_save (hk : host.Keeps kept good) (p : Pipeline) {s : σ} (hs : kept s)
    (hgood : host.store ≠ none → p.result.reached = some .cpu →
      p.result.bag.hasErrors = false → good (p.key o) (artifacts p.result)) :
  Saves kept p ((p.save host o).run s)
  := by
  rw [save]
  cases hstore : host.store with
  | none => exact ⟨rfl, rfl, hs⟩
  | some store =>
      dsimp only
      split
      · exact ⟨rfl, rfl, hs⟩
      · next hdone =>
        simp only [Bool.or_eq_true, decide_eq_true_eq, not_or, not_not, Bool.not_eq_true] at hdone
        have hs₁ := hk.put store hstore _ _ _ hs (hgood (by simp [hstore]) hdone.1 hdone.2)
        rw [StateT.run_bind]
        rcases hput : (store.put (p.key o) (artifacts p.result)).run s with ⟨_ | message, s₁⟩
        all_goals rw [hput] at hs₁
        · exact ⟨rfl, rfl, hs₁⟩
        · exact ⟨rfl, rfl, hk.now s₁ hs₁⟩

/-! ### Whole compilations -/

/-- The end of a compilation: all stages were run, or the artifacts were found. -/
def Completes (kept : σ → Prop) (good : Digest → Artifacts → Prop) (o : CompileOptions)
    (p : Pipeline) (r : (Pipeline × Option Stop) × σ) : Prop :=
  Yields kept p.timer.isSome (advanceRun o p.made) r ∨
    ∃ a, good (p.key o) a ∧ a.isUsable = true ∧ o.run = false ∧
      Yields kept p.timer.isSome (p.made.takeOver a, none) r

theorem completes_runAll (hk : host.Keeps kept good) {p : Pipeline} (hp : p.result.cached = false)
    (hgood : host.store ≠ none → ∀ q, advanceAll o (stages o) p.made = (q, none) →
      q.result.reached = some .cpu → q.result.bag.hasErrors = false →
      good (q.key o) (artifacts q.result))
    {s : σ} (hs : kept s) :
  Completes kept good o p ((p.runAll host o).run s)
  := by
  have hrestore : Restores kept good o p ((p.restore host o).run s) := restores_restore hk p hs
  rw [runAll, StateT.run_bind]
  rcases hp₁ : (p.restore host o).run s with ⟨p₁, s₁⟩
  rw [hp₁] at hrestore
  obtain ⟨hmade | ⟨a, ha, husable, hrun, hmade⟩, htimer, hs₁⟩ := hrestore
  · left
    have hcached : p₁.result.cached = false := by
      calc p₁.result.cached
        _ = p₁.made.result.cached := rfl
        _ = p.made.result.cached := by rw [hmade]
        _ = false := hp
    have hstages : Yields kept _ _ ((runStages host o (stages o) p₁).run s₁) :=
      yields_runStages hk (fun _ => plain_of_mem_stages) p₁ hs₁
    change Yields _ _ _ ((if p₁.result.cached then _ else _ : StateM σ _).run s₁)
    rw [hcached, if_neg (by simp), StateT.run_bind]
    rcases hp₂ : (runStages host o (stages o) p₁).run s₁ with ⟨⟨p₂, stop⟩, s₂⟩
    rw [hp₂, hmade] at hstages
    obtain ⟨hmade₂, rfl, htimer₂, hs₂⟩ := hstages
    dsimp only at hmade₂ htimer₂ hs₂
    rw [advanceRun]
    rcases hadvance : advanceAll o (stages o) p.made with ⟨q, _ | stop⟩
    · rw [hadvance] at hmade₂
      obtain rfl : p₂.made = q := hmade₂
      have hsave : Saves kept p₂ ((p₂.save host o).run s₂) :=
        saves_save hk p₂ hs₂ fun hstore => hgood hstore p₂.made hadvance
      change Yields _ _ _ (((p₂.save host o) >>= fun p₃ =>
        if o.run then runStage host o .run (body (Stage.running o)) p₃ else pure (p₃, none)).run s₂)
      rw [StateT.run_bind]
      rcases hp₃ : (p₂.save host o).run s₂ with ⟨p₃, s₃⟩
      rw [hp₃] at hsave
      obtain ⟨hmade₃, htimer₃, hs₃⟩ := hsave
      dsimp only at hmade₃ htimer₃ hs₃ ⊢
      rw [← htimer, ← htimer₂, ← htimer₃, ← hmade₃]
      split
      · exact yields_runStage hk (plain_running o) p₃ hs₃
      · exact ⟨rfl, rfl, rfl, hs₃⟩
    · rw [hadvance] at hmade₂
      exact ⟨hmade₂, rfl, htimer₂.trans htimer, hs₂⟩
  · right
    use a, ha, husable, hrun
    have hcached : p₁.result.cached = true := by
      calc p₁.result.cached
        _ = p₁.made.result.cached := rfl
        _ = (p.made.takeOver a).result.cached := by rw [hmade]
        _ = true := cached_takeOver p.made husable
    change Yields _ _ _ ((if p₁.result.cached then _ else _ : StateM σ _).run s₁)
    rw [hcached, if_pos rfl]
    exact ⟨hmade, rfl, htimer, hs₁⟩

/-- The pipeline at the start of a compilation, as far as it makes something. -/
def start (o : CompileOptions) (files : FileSet) (file : File) : Pipeline :=
  { result := { files, file, bag := .ofLimit o.maxDiagnostics } }

/-- The status of a file at the end. -/
def status (p : Pipeline) (error : Option Text) : Status :=
  if error.isSome || p.result.bag.hasErrors then .error
  else if p.result.cached then .cached
  else .done

end Pipeline

/-- Adds a finding also beyond the limit. -/
def Bag.addBeyond (b : Bag) (d : Diagnostic) : Bag :=
  if b.isFull then b.merge { items := [d] } else b.add d

theorem Bag.items_addBeyond (b : Bag) (d : Diagnostic) :
  (b.addBeyond d).items = b.items ++ [d]
  := by
  rw [addBeyond]
  split
  · rfl
  · next hfull => rw [add, if_neg hfull]

/-- An outcome tells what a pipeline made and why it stopped; only the times come on top. -/
structure CompileOutcome.Tells (c : CompileOutcome) (o : CompileOptions)
    (q : Pipeline × Option Stop) : Prop where
  error : c.error = if q.2 = some .cancelled then some Stop.cancelled.message else none
  result : { c.result.timeless with bag := q.1.result.bag } = q.1.result
  bag : if o.timings then
      ∃ name report, c.result.bag = q.1.result.bag.addBeyond (Pipeline.timingDiagnostic name report)
    else c.result.bag = q.1.result.bag
  status : c.events.getLast?.map (·.status) = some (q.1.status c.error)

theorem CompileOutcome.Tells.reached {c : CompileOutcome} {o : CompileOptions}
    {q : Pipeline × Option Stop} (h : c.Tells o q) :
  c.result.reached = q.1.result.reached
  := by
  rw [← h.result]
  rfl

/-- The outcome of a pipeline that has stopped. -/
def Pipeline.concluded (p : Pipeline) (stop : Option Stop) (began ended : Int) (span : TraceSpan) :
    CompileOutcome :=
  let error := match stop with
    | some .cancelled => some Stop.cancelled.message
    | _ => none
  let status := p.status error
  let p := (p.announce p.result.reached status error (ended - began)).addTimings
  let notes : List (Text × Text) :=
    [("status", status.name), ("diagnostics", Text.ofNat p.result.bag.items.length)]
  let p := p.closeSpan ended span notes (stageName p.result.reached)
  { result := p.result, events := p.events, tracer := p.tracer, error }

theorem Pipeline.tells_concluded {p : Pipeline} {o : CompileOptions}
    (htimer : p.timer.isSome = o.timings) (stop : Option Stop) (began ended : Int)
    (span : TraceSpan) :
  (p.concluded stop began ended span).Tells o (p.made, stop)
  := by
  have herror : (p.concluded stop began ended span).error
      = if stop = some .cancelled then some Stop.cancelled.message else none := by
    rcases stop with _ | _ | _
    · rfl
    · rfl
    · rfl
  obtain ⟨name, result, table, tracer, parent, timer, events⟩ := p
  cases timer with
  | none =>
      refine ⟨herror, rfl, ?_, ?_⟩
      · rw [← htimer]
        rfl
      · change (events ++ [_]).getLast?.map _ = _
        rw [List.getLast?_concat]
        rfl
  | some t =>
      refine ⟨herror, rfl, ?_, ?_⟩
      · rw [← htimer]
        exact ⟨name, .ofTimer t, rfl⟩
      · change (events ++ [_]).getLast?.map _ = _
        rw [List.getLast?_concat]
        rfl

/-- The pipeline with which a compilation begins, and its span of the trace. -/
def Pipeline.begun (o : CompileOptions) (files : FileSet) (file : File) (tracer : Tracer)
    (parent : Nat) (now : Int) : Pipeline × TraceSpan :=
  let name := if o.displayName.isEmpty then file.path else o.displayName
  let (tracer, span) := tracer.openSpan (traceTime now) .file "compile" parent
  let (tracer, span) := tracer.note span "file" name
  ({ name, tracer
     result := { files, file, bag := .ofLimit o.maxDiagnostics }
     parent := if span.isLive then span.id else parent
     timer := if o.timings then some [] else none },
    span)

theorem Pipeline.made_begun (o : CompileOptions) (files : FileSet) (file : File) (tracer : Tracer)
    (parent : Nat) (now : Int) :
  (begun o files file tracer parent now).1.made = start o files file
  := rfl

theorem Pipeline.isSome_timer_begun (o : CompileOptions) (files : FileSet) (file : File)
    (tracer : Tracer) (parent : Nat) (now : Int) :
  (begun o files file tracer parent now).1.timer.isSome = o.timings
  := by
  change (if o.timings then some [] else none : Option PhaseTimer).isSome = _
  cases o.timings with
  | true => rfl
  | false => rfl

/-- Why the pipeline of a compilation stops. -/
def stopOf (host : CompileHost (StateM σ)) (o : CompileOptions) (files : FileSet) (file : File)
    (tracer : Tracer) (parent : Nat) (s : σ) : Option Stop :=
  let t := host.now.run s
  (((Pipeline.begun o files file tracer parent t.1).1.runAll host o).run t.2).1.2

/-- A compilation runs a pipeline between two readings of the clock. -/
theorem compile_eq (host : CompileHost (StateM σ)) (o : CompileOptions) (files : FileSet)
    (file : File) (tracer : Tracer) (parent : Nat) (s : σ) :
  let t := host.now.run s
  let p := Pipeline.begun o files file tracer parent t.1
  let r := (p.1.runAll host o).run t.2
  let u := host.now.run r.2
  (compile host o files file tracer parent).run s = (r.1.1.concluded r.1.2 t.1 u.1 p.2, u.2)
  := by
  intro t p r u
  rfl

/-- A compilation tells what its pipeline yields. -/
theorem tells_of_yields {host : CompileHost (StateM σ)} {kept : σ → Prop}
    (hnow : ∀ s, kept s → kept (host.now.run s).2) {o : CompileOptions} {files : FileSet}
    {file : File} {tracer : Tracer} {parent : Nat} {s : σ} {q : Pipeline × Option Stop}
    (h : Pipeline.Yields kept o.timings q
      (((Pipeline.begun o files file tracer parent (host.now.run s).1).1.runAll host o).run
        (host.now.run s).2)) :
  kept ((compile host o files file tracer parent).run s).2
    ∧ ((compile host o files file tracer parent).run s).1.Tells o q
    ∧ stopOf host o files file tracer parent s = q.2
  := by
  rw [compile_eq, stopOf]
  dsimp only
  generalize ((Pipeline.begun o files file tracer parent (host.now.run s).1).1.runAll host o).run
    (host.now.run s).2 = r at h ⊢
  obtain ⟨⟨p, stop⟩, s'⟩ := r
  obtain ⟨q, stop'⟩ := q
  obtain ⟨rfl, rfl, htimed, hkept⟩ := h
  exact ⟨hnow s' hkept, Pipeline.tells_concluded htimed _ _ _ _, rfl⟩

/-- A compilation is a run of all stages, or tells what was stored. -/
theorem tells_compile {host : CompileHost (StateM σ)} {kept : σ → Prop}
    {good : Digest → Artifacts → Prop} (hk : host.Keeps kept good) {o : CompileOptions}
    {files : FileSet} {file : File}
    (hgood : host.store ≠ none →
      ∀ q, Pipeline.advanceAll o (Pipeline.stages o) (.start o files file) = (q, none) →
        q.result.reached = some .cpu → q.result.bag.hasErrors = false →
        good (q.key o) (Pipeline.artifacts q.result))
    (tracer : Tracer) (parent : Nat) {s : σ} (hs : kept s) :
  let r := (compile host o files file tracer parent).run s
  let stop := stopOf host o files file tracer parent s
  let q := Pipeline.advanceRun o (.start o files file)
  kept r.2 ∧ (r.1.Tells o q ∧ stop = q.2 ∨
    ∃ a, good (Artifacts.key file.digest o.registers) a ∧ a.isUsable = true ∧ o.run = false
      ∧ r.1.Tells o ((Pipeline.start o files file).takeOver a, none) ∧ stop = none)
  := by
  let p := (Pipeline.begun o files file tracer parent (host.now.run s).1).1
  have hmade : p.made = .start o files file := Pipeline.made_begun ..
  have hkey : p.key o = Artifacts.key file.digest o.registers := rfl
  have hcompletes : Pipeline.Completes kept good o p _ :=
    Pipeline.completes_runAll hk rfl (hmade ▸ hgood) (hk.now s hs)
  rw [Pipeline.Completes, hmade, hkey, Pipeline.isSome_timer_begun] at hcompletes
  obtain hall | ⟨a, ha, husable, hrun, hall⟩ := hcompletes
  · obtain ⟨hkept, htold⟩ := tells_of_yields hk.now hall
    exact ⟨hkept, .inl htold⟩
  · obtain ⟨hkept, htold⟩ := tells_of_yields hk.now hall
    exact ⟨hkept, .inr ⟨a, ha, husable, hrun, htold⟩⟩

/-- Without a store a compilation is a run of all stages. -/
theorem tells_without_store {host : CompileHost (StateM σ)} (hstore : host.store = none)
    (o : CompileOptions) (files : FileSet) (file : File) (tracer : Tracer) (parent : Nat) (s : σ) :
  let q := Pipeline.advanceRun o (.start o files file)
  ((compile host o files file tracer parent).run s).1.Tells o q
    ∧ stopOf host o files file tracer parent s = q.2
  := by
  obtain ⟨-, htells | ⟨a, ha, -⟩⟩ := tells_compile (CompileHost.keeps_of_none hstore)
    (fun h => absurd hstore h) tracer parent (o := o) (s := s) trivial
  · exact htells
  · cases ha

end ThreeAddress
