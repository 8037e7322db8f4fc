import ThreeAddress.Command.Inspect
import ThreeAddress.Proofs.Pipeline.Endings

/-!
# Failures and their findings

A stage that fails leaves an error among the findings, and the error decides how the compilation
ends.  There is one exception: if findings about registers have filled the bag, a fault of the run
has no place in it.
-/

namespace ThreeAddress

open Grammar

variable {σ : Type}

namespace CompileResult

/-- The number of variables without a register. -/
def spilledCount (r : CompileResult) : Nat := (r.allocation.map (·.spilled.length)).getD 0

/-- Findings about registers have filled the bag before the run. -/
def Crowded (r : CompileResult) (limit : Int) : Prop :=
  r.stats.isSome ∧ 0 < limit ∧ limit ≤ r.spilledCount

end CompileResult

/-- An ending before machine code has an error. -/
theorem Ending.exists_error {reached : Option Stage} {ds : List Diagnostic}
    (h : Ending reached ds) (hreached : reached ≠ some .cpu) :
  ∃ d ∈ ds, d.severity.isError = true
  := by
  cases h with
  | lexical hne hds =>
      obtain ⟨d, hd⟩ := List.exists_mem_of_ne_nil ds hne
      exact ⟨d, hd, by rw [(hds d hd).1]; rfl⟩
  | syntactic hds herror =>
      obtain ⟨d, hd, hseverity⟩ := herror
      exact ⟨d, hd, by rw [hseverity]; rfl⟩
  | redeclaration herror hcode => exact ⟨_, List.mem_singleton_self _, by rw [herror]; rfl⟩
  | complete hds => exact absurd rfl hreached

namespace Pipeline

variable {o : CompileOptions} {file : File} {p : Pipeline} {n : Nat}

theorem length_spills (o : CompileOptions) (file : File) (r : CompileResult) :
  (spills o file r.allocation).length
    = if o.maxDiagnostics.toNat = 0 then r.spilledCount
      else min o.maxDiagnostics.toNat r.spilledCount
  := by
  rw [CompileResult.spilledCount]
  cases r.allocation with
  | none =>
      rw [spills]
      split
      · rfl
      · exact (Nat.min_zero _).symm
  | some a =>
      rw [spills]
      split
      · rw [List.length_map]
        rfl
      · rw [List.length_take, List.length_map]
        rfl

/-- The bag is full after the stages before the run if the findings about registers fill it. -/
theorem Healthy.isFull_iff (h : Healthy o file n p) :
  p.result.bag.isFull = true
    ↔ 0 < o.maxDiagnostics ∧ o.maxDiagnostics ≤ p.result.spilledCount
  := by
  rw [Bag.isFull_iff, h.limit, h.items, length_spills]
  split
  · omega
  · omega

/-- There is no error after the stages before the run. -/
theorem Healthy.hasErrors (h : Healthy o file n p) :
  p.result.bag.hasErrors = false
  := by
  rw [Bool.eq_false_iff, ne_eq, Bag.hasErrors_iff, h.items]
  rintro ⟨d, hd, herror⟩
  rw [(severity_spills hd).1] at herror
  cases herror

/-- A run that fails leaves an error if there is room for it. -/
theorem Healthy.running (h : Healthy o file n p) (hcancel : o.cancelled = false)
    (hstop : (advance o .run (body (Stage.running o)) p).2 = some .stageFailed) :
  let r := (advance o .run (body (Stage.running o)) p).1.result
  (r.bag.hasErrors = true ↔ ¬ r.Crowded o.maxDiagnostics) ∧ r.cached = false
  := by
  cases hfault : (Stage.ran o p.result).fault with
  | none =>
      have hstage := Stage.running_of_none hfault
      rw [advance_of_succeeded hcancel (by rw [body, hstage])] at hstop
      cases hstop
  | some f =>
      have hstage := Stage.running_of_some hfault
      rw [advance_of_failed hcancel (by rw [body, hstage]), body, hstage]
      refine ⟨?_, h.cached⟩
      change (p.result.bag.add f.finding).hasErrors = true ↔ ¬ (_ ∧ _)
      change _ ↔ ¬ (true = true ∧ 0 < o.maxDiagnostics ∧ o.maxDiagnostics ≤ p.result.spilledCount)
      rw [← h.isFull_iff, Bag.add]
      split
      · next hfull => simp [hfull, h.hasErrors]
      · next hfull =>
        simp [hfull, Bag.hasErrors, Fault.finding, Diagnostic.error, Severity.isError,
          Severity.rank]

/-- A failed stage leaves an error, unless the findings about registers take its place. -/
theorem hasErrors_advanceRun (hcancel : o.cancelled = false) (files : FileSet) (file : File)
    (hstop : (advanceRun o (start o files file)).2 = some .stageFailed) :
  let r := (advanceRun o (start o files file)).1.result
  (r.bag.hasErrors = true ↔ ¬ r.Crowded o.maxDiagnostics) ∧ r.cached = false
  := by
  have hstages := (healthy_start files file).advanceAll (Nat.zero_le _) hcancel rfl
  rw [advanceRun] at hstop ⊢
  rw [List.drop_zero] at hstages
  rcases hall : Pipeline.advanceAll o (stages o) (start o files file) with ⟨p, stop⟩
  rw [hall] at hstages hstop
  obtain ⟨rfl, hbroken⟩ | ⟨rfl, m, -, hhealthy, -⟩ := hstages
  · have herror := (Bag.hasErrors_iff _).mpr (hbroken.ending.exists_error hbroken.failed)
    have hcrowded : ¬ p.result.Crowded o.maxDiagnostics := by
      rintro ⟨hstats, -⟩
      rw [hbroken.stats] at hstats
      cases hstats
    exact ⟨iff_of_true herror hcrowded, hbroken.cached⟩
  · dsimp only at hstop ⊢
    split
    · next hrun =>
      rw [if_pos hrun] at hstop
      exact hhealthy.running hcancel hstop
    · next hrun =>
      rw [if_neg hrun] at hstop
      cases hstop

/-- A program that faults makes the run fail, after all stages before it. -/
theorem advanceRun_of_fault {ss : List Stmt} {code : Program} {table : SymbolTable}
    (hmeans : file.Means ss code table) (hcancel : o.cancelled = false)
    (hlast : lastStage o = .cpu) (hrun : o.run = true) {f : Fault}
    (hfault : (runProgram (.ofRequest o.maxSteps o.maxDepth o.cancelled) ss).fault = some f)
    (files : FileSet) :
  let q := advanceRun o (start o files file)
  q.2 = some .stageFailed ∧ q.1.result.stats.isSome = true
    ∧ q.1.result.allocation = some (.ofProgram o.registers (some (Graph.build code)) code)
  := by
  rw [advanceRun, hrun]
  have hall := advanceAll_start hcancel hlast files file
  rcases hq : Pipeline.advanceAll o (stages o) (start o files file) with ⟨p, stop⟩
  rw [hq] at hall
  obtain ⟨-, hbroken⟩ | ⟨rfl, hhealthy⟩ := hall
  · cases hbroken.faulty ss code table hmeans
  · obtain ⟨hstatements, hprogram, -⟩ := hhealthy.eq_of_means hmeans (by omega)
    have hstage := Stage.running_of_some (r := p.result) (o := o) (f := f) (by
      rw [Stage.ran, hstatements]
      exact hfault)
    dsimp only
    rw [if_pos rfl, advance_of_failed hcancel (by rw [body, hstage]), body, hstage]
    refine ⟨rfl, rfl, ?_⟩
    change p.result.allocation = _
    rw [hhealthy.allocation, if_pos (by omega), hhealthy.graph (by omega), hprogram]

end Pipeline

/-- The times of a compilation are no errors. -/
theorem CompileOutcome.Tells.hasErrors {c : CompileOutcome} {o : CompileOptions}
    {q : Pipeline × Option Stop} (h : c.Tells o q) :
  c.result.bag.hasErrors = q.1.result.bag.hasErrors
  := by
  obtain ⟨times, hitems, -, htimes⟩ := h.items
  have hnone : times.any (·.severity.isError) = false := by
    rw [List.any_eq_false]
    intro d hd
    rw [(htimes d hd).1]
    simp [Severity.isError, Severity.rank]
  rw [Bag.hasErrors, hitems, List.any_append, hnone, Bool.or_false, Bag.hasErrors]

theorem CompileOutcome.Tells.crowded_iff {c : CompileOutcome} {o : CompileOptions}
    {q : Pipeline × Option Stop} (h : c.Tells o q) (limit : Int) :
  c.result.Crowded limit ↔ q.1.result.Crowded limit
  := by
  have hstats : c.result.stats = q.1.result.stats := congrArg (·.stats) h.result
  have hallocation : c.result.allocation = q.1.result.allocation :=
    congrArg (·.allocation) h.result
  rw [CompileResult.Crowded, CompileResult.Crowded, CompileResult.spilledCount,
    CompileResult.spilledCount, hstats, hallocation]

/-- Errors among the findings, and nothing else, make a command fail that compiled a file. -/
theorem exit_conclude (host : CommandHost (StateM σ)) (p : Preferences) (r : CompileResult)
    (session : Session) (s : σ) :
  let done := ((Action.conclude p r : Action (StateM σ) Unit).run.run session).run s
  ((done.1.2.finish host done.1.1).run done.2).1.exit = if r.bag.hasErrors then 1 else 0
  := by
  rw [Action.conclude]
  cases p.timings && !p.isJson with
  | true =>
      cases r.bag.hasErrors with
      | true => rfl
      | false => rfl
  | false =>
      cases r.bag.hasErrors with
      | true => rfl
      | false => rfl

/-- A failed stage leaves an error, so that the file has the status of an error and the command
fails, if and only if the findings about registers have not filled the bag before a run. -/
theorem failed_stage_leaves_error (host : CompileHost (StateM σ)) (o : CompileOptions)
    (files : FileSet) (file : File) (tracer : Tracer) (parent : Nat) (s : σ)
    (hcancel : o.cancelled = false)
    (hfail : stopOf host o files file tracer parent s = some .stageFailed) :
  let c := ((compile host o files file tracer parent).run s).1
  (c.result.bag.hasErrors = true ↔ ¬ c.result.Crowded o.maxDiagnostics)
    ∧ c.events.getLast?.map (·.status)
      = some (if c.result.bag.hasErrors then .error else .done)
    ∧ ∀ (commands : CommandHost (StateM σ)) (p : Preferences) (session : Session) (s' : σ),
      let done := ((Action.conclude p c.result : Action (StateM σ) Unit).run.run session).run s'
      ((done.1.2.finish commands done.1.1).run done.2).1.exit
        = if c.result.bag.hasErrors then 1 else 0
  := by
  intro c
  obtain ⟨htells, hstop⟩ : c.Tells o (Pipeline.advanceRun o (.start o files file)) ∧
      stopOf host o files file tracer parent s = _ := by
    obtain ⟨-, htells | ⟨a, -, -, -, -, hnone⟩⟩ := tells_compile host.keeps_true
      (fun _ _ _ _ _ => trivial) tracer parent (s := s) trivial
    · exact htells
    · rw [hnone] at hfail
      cases hfail
  rw [hfail] at hstop
  obtain ⟨herrors, hcached⟩ := Pipeline.hasErrors_advanceRun hcancel files file hstop.symm
  generalize Pipeline.advanceRun o (.start o files file) = q at htells hstop herrors hcached
  refine ⟨?_, ?_, fun commands p session s' => exit_conclude commands p c.result session s'⟩
  · rw [htells.hasErrors, htells.crowded_iff, herrors]
  · have herror : c.error = none := by
      rw [htells.error, ← hstop]
      rfl
    rw [htells.status, herror, Pipeline.status, htells.hasErrors, hcached]
    rfl

/-! ### A fault that is lost -/

/-- One register, a limit on the findings, and a run. -/
def oneRegister (limit : Int) : CompileOptions :=
  { maxDiagnostics := limit, registers := { count := 1 }, run := true }

/-- The compilation of `undeclaredSum` with one register. -/
def compileUndeclaredSum (limit : Int) : CompileOutcome :=
  ((compile stillHost (oneRegister limit) {} undeclaredSum {} 0).run ()).1

theorem tells_compileUndeclaredSum (limit : Int) :
  let q := Pipeline.advanceRun (oneRegister limit) (.start (oneRegister limit) {} undeclaredSum)
  (compileUndeclaredSum limit).Tells (oneRegister limit) q
    ∧ stopOf stillHost (oneRegister limit) {} undeclaredSum {} 0 () = q.2
  := by
  have hstore : stillHost.store = none := rfl
  exact tells_without_store hstore ..

/-- The run of `undeclaredSum` fails whatever the limit is, and one variable has no register. -/
theorem advanceRun_undeclaredSum (limit : Int) :
  let q := Pipeline.advanceRun (oneRegister limit) (.start (oneRegister limit) {} undeclaredSum)
  q.2 = some .stageFailed ∧ (q.1.result.Crowded limit ↔ 0 < limit ∧ limit ≤ 1)
  := by
  obtain ⟨f, hfault⟩ :
      ∃ f, (runProgram (.ofRequest 0 0 false) [undeclaredSumBody]).fault = some f :=
    Option.isSome_iff_exists.mp (by decide)
  obtain ⟨hstop, hstats, hallocation⟩ :=
    Pipeline.advanceRun_of_fault means_undeclaredSum (o := oneRegister limit) rfl rfl rfl hfault {}
  have hspilled : (Allocation.ofProgram { count := 1 } (some (Graph.build undeclaredSumCode))
      undeclaredSumCode).spilled.length = 1 := by decide +kernel
  refine ⟨hstop, ?_⟩
  rw [CompileResult.Crowded, hstats, CompileResult.spilledCount, hallocation]
  change true = true ∧ 0 < limit ∧ limit ≤ ((Allocation.ofProgram { count := 1 }
    (some (Graph.build undeclaredSumCode)) undeclaredSumCode).spilled.length : Int) ↔ _
  rw [hspilled]
  simp

theorem undeclaredSum_leaves_error :
  stopOf stillHost (oneRegister 2) {} undeclaredSum {} 0 () = some .stageFailed
    ∧ (compileUndeclaredSum 2).result.bag.hasErrors = true
  := by
  obtain ⟨htells, hstop⟩ := tells_compileUndeclaredSum 2
  obtain ⟨hfail, hcrowded⟩ := advanceRun_undeclaredSum 2
  rw [hfail] at hstop
  refine ⟨hstop, ?_⟩
  have herrors :=
    (failed_stage_leaves_error stillHost (oneRegister 2) {} undeclaredSum {} 0 () rfl hstop).1
  apply herrors.mpr
  change ¬ (compileUndeclaredSum 2).result.Crowded 2
  rw [htells.crowded_iff, hcrowded]
  decide

/-- With room for one finding the fault of the run is lost: the finding about a register is the
only one, and the file is done. -/
theorem undeclaredSum_loses_error :
  stopOf stillHost (oneRegister 1) {} undeclaredSum {} 0 () = some .stageFailed
    ∧ (compileUndeclaredSum 1).result.bag.hasErrors = false
  := by
  obtain ⟨htells, hstop⟩ := tells_compileUndeclaredSum 1
  obtain ⟨hfail, hcrowded⟩ := advanceRun_undeclaredSum 1
  refine ⟨hstop.trans hfail, ?_⟩
  rw [htells.hasErrors, Bool.eq_false_iff, ne_eq,
    (Pipeline.hasErrors_advanceRun rfl {} undeclaredSum hfail).1]
  change ¬ ¬ CompileResult.Crowded _ 1
  rw [hcrowded]
  decide

end ThreeAddress
