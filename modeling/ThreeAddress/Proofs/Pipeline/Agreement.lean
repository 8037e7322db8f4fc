import ThreeAddress.Proofs.Pipeline.Transparency

/-!
# Requests that share a store agree

Requests that differ only in the file store artifacts only if they all ask for machine code, and
then what one of them finds is what it would have made itself.  So each of them tells what it tells
alone, also of the findings and of the output of the program.
-/

namespace ThreeAddress

namespace Pipeline

variable {o : CompileOptions} {p q : Pipeline}

/-! ### Stages -/

/-- Unless a compilation is cancelled, it is not stopped for that. -/
theorem stop_advance_ne_cancelled (hcancel : o.cancelled = false) (stage : Stage) (f : Body)
    (p : Pipeline) :
  (advance o stage f p).2 ≠ some .cancelled
  := by
  rw [advance, hcancel, if_neg (by simp)]
  split
  · simp
  · simp

theorem stop_advanceAll_ne_cancelled (hcancel : o.cancelled = false) (fs : List (Stage × Body))
    (p : Pipeline) :
  (advanceAll o fs p).2 ≠ some .cancelled
  := by
  induction fs generalizing p with
  | nil => simp [advanceAll]
  | cons x fs ih =>
      obtain ⟨stage, f⟩ := x
      rw [advanceAll]
      split
      · have hstage := stop_advance_ne_cancelled hcancel stage f p
        rcases hadvance : advance o stage f p with ⟨q, _ | stop⟩
        · exact ih q
        · rw [hadvance] at hstage
          exact hstage
      · simp

theorem stop_advanceRun_ne_cancelled (hcancel : o.cancelled = false) (p : Pipeline) :
  (advanceRun o p).2 ≠ some .cancelled
  := by
  have hall := stop_advanceAll_ne_cancelled hcancel (stages o) p
  rw [advanceRun]
  rcases hadvance : advanceAll o (stages o) p with ⟨q, _ | stop⟩
  · dsimp only
    split
    · apply stop_advance_ne_cancelled hcancel
    · simp
  · rw [hadvance] at hall
    exact hall

/-- Nothing is printed by a stage before the run. -/
theorem output_of_mem_stages {stage : Stage} {f : Body} (h : (stage, f) ∈ stages o) (p : Pipeline) :
  (f p).1.result.output = p.result.output
  := by
  simp only [stages, List.mem_cons, List.not_mem_nil, or_false, Prod.mk.injEq] at h
  obtain ⟨-, rfl⟩ | ⟨-, rfl⟩ | ⟨-, rfl⟩ | ⟨-, rfl⟩ | ⟨-, rfl⟩ | ⟨-, rfl⟩ := h
  · rfl
  · rfl
  · dsimp only
    rcases hcode : generate p.result.statements {} with ⟨e | program, table⟩
    · rw [Stage.generating_of_error hcode]
      rfl
    · cases hcheck : program.check? with
      | none => rw [Stage.generating_of_ok hcode hcheck]
      | some problem =>
          rw [Stage.generating_of_problem hcode hcheck]
          rfl
  · rw [body, Stage.graphing_eq]
  · rw [body, Stage.allocating_eq]
  · change (Stage.emitting p.table p.result).1.output = _
    cases hlower : p.result.program.lower p.table with
    | error e =>
        rw [Stage.emitting_of_error hlower]
        rfl
    | ok machine => rw [Stage.emitting_of_ok hlower]

theorem output_advanceAll {fs : List (Stage × Body)} (hfs : ∀ x ∈ fs, x ∈ stages o) (p : Pipeline) :
  (advanceAll o fs p).1.result.output = p.result.output
  := by
  induction fs generalizing p with
  | nil => rfl
  | cons x fs ih =>
      obtain ⟨stage, f⟩ := x
      obtain ⟨hf, hfs⟩ := List.forall_mem_cons.mp hfs
      have houtput : (advance o stage f p).1.result.output = p.result.output := by
        rw [advance]
        split_ifs
        · rfl
        · exact output_of_mem_stages hf p
        · exact output_of_mem_stages hf p
      rw [advanceAll]
      split
      · rcases hadvance : advance o stage f p with ⟨q, _ | stop⟩
        · rw [hadvance] at houtput
          exact (ih hfs q).trans houtput
        · rw [hadvance] at houtput
          exact houtput
      · rfl

/-- The stage that is reached last was wanted. -/
theorem wants_of_advanceAll {fs : List (Stage × Body)} (h : advanceAll o fs p = (q, none)) :
  q.result.reached = p.result.reached ∨ ∃ x ∈ fs, wants o x.1 ∧ q.result.reached = some x.1
  := by
  induction fs generalizing p with
  | nil =>
      cases h
      exact .inl rfl
  | cons x fs ih =>
      obtain ⟨stage, f⟩ := x
      rw [advanceAll] at h
      split at h
      · next hwants =>
        right
        rcases hadvance : advance o stage f p with ⟨r, _ | stop⟩
        · rw [hadvance] at h
          have hreached : r.result.reached = some stage := by
            rw [advance] at hadvance
            split_ifs at hadvance
            · cases hadvance
            · cases hadvance
            · cases hadvance
              rfl
          obtain hsame | ⟨x, hx, hwanted, hlast⟩ := ih h
          · exact ⟨(stage, f), List.mem_cons_self, hwants, hsame.trans hreached⟩
          · exact ⟨x, List.mem_cons_of_mem _ hx, hwanted, hlast⟩
        · rw [hadvance] at h
          cases h
      · cases h
        exact .inl rfl

/-- If the machine code is wanted, every stage before it is. -/
theorem wants_of_wants_cpu (h : wants o .cpu = true) {x : Stage × Body} (hx : x ∈ stages o) :
  wants o x.1 = true
  := by
  have hcpu : Stage.cpu.place = 5 := rfl
  have hparse : Stage.parse.place = 1 := rfl
  simp only [wants, hcpu, hparse, Bool.or_eq_true, Bool.and_eq_true, decide_eq_true_eq] at h ⊢
  have hplace : x.1.place ≤ 5 := by
    simp only [stages, List.mem_cons, List.not_mem_nil, or_false] at hx
    obtain rfl | rfl | rfl | rfl | rfl | rfl := hx
    all_goals dsimp only
    all_goals decide
  omega

/-- What is taken over prints nothing. -/
theorem output_takeOver (p : Pipeline) {a : Artifacts} {g : Graph} {alloc : Allocation}
    (hg : a.graph = some g) (halloc : a.allocation = some alloc) :
  (p.takeOver a).result.output = p.result.output
  := by
  rw [takeOver_eq p hg halloc]

end Pipeline

/-- A request that makes artifacts wants machine code. -/
theorem Request.Makes.wants {r : Request} {a : Artifacts} (h : r.Makes a) :
  Pipeline.wants r.options .cpu = true
  := by
  obtain ⟨p, hp, hreached, -⟩ := h
  obtain hsame | ⟨x, -, hwants, hlast⟩ := Pipeline.wants_of_advanceAll hp
  · rw [hreached] at hsame
    cases hsame
  · rw [hreached] at hlast
    rw [Option.some.inj hlast]
    exact hwants

/-- Unless it is cancelled, a compilation is never cut short from outside. -/
theorem error_compile {σ : Type} (host : CompileHost (StateM σ)) {o : CompileOptions}
    (hcancel : o.cancelled = false) (files : FileSet) (file : File) (tracer : Tracer) (parent : Nat)
    (s : σ) :
  ((compile host o files file tracer parent).run s).1.error = none
  := by
  have htells : True ∧ (((compile host o files file tracer parent).run s).1.Tells o _ ∧ _ ∨ _) :=
    tells_compile host.keeps_true (fun _ _ _ _ _ => trivial) tracer parent trivial
  obtain ⟨-, ⟨htells, -⟩ | ⟨a, -, -, -, htells, -⟩⟩ := htells
  · exact htells.error.trans (if_neg (Pipeline.stop_advanceRun_ne_cancelled hcancel _))
  · exact htells.error

/-! ### Results -/

/-- The results agree, and so do the outputs of the programs.  The findings are the same but for the
times, if these are asked for. -/
structure CompileResult.Matches (timings : Bool) (r r' : CompileResult) : Prop where
  agrees : r.Agrees r'
  findings : timings = false → r.bag = r'.bag
  output : r.output = r'.output

theorem CompileOutcome.Tells.matches {c d : CompileOutcome} {o : CompileOptions}
    {q q' : Pipeline × Option Stop} (h : c.Tells o q) (h' : d.Tells o q')
    (hartifacts : (Pipeline.artifacts q.1.result).Agrees (Pipeline.artifacts q'.1.result))
    (hreached : q.1.result.reached = q'.1.result.reached)
    (hbag : q.1.result.bag = q'.1.result.bag)
    (houtput : q.1.result.output = q'.1.result.output) :
  c.result.Matches o.timings d.result
  := by
  refine ⟨h.agrees h' hartifacts hreached hbag, ?_, ?_⟩
  · intro htimings
    have htold := h.bag
    have htold' := h'.bag
    rw [htimings, if_neg (by simp)] at htold htold'
    rw [htold, htold', hbag]
  · rw [← h.result, ← h'.result] at houtput
    exact houtput

/-- What a request tells that has shared a store. -/
def Request.Told (rs : List Request) (r : Request) (c : CompileOutcome) : Prop :=
  c.Tells r.options (Pipeline.advanceRun r.options (.start r.options r.files r.file))
    ∨ ∃ a, Stored rs r.key a ∧ r.options.run = false
      ∧ c.Tells r.options ((Pipeline.start r.options r.files r.file).takeOver a, none)

theorem Request.Told.error {rs : List Request} {r : Request} {c : CompileOutcome}
    (hc : r.Told rs c) (hcancel : r.options.cancelled = false) :
  c.error = none
  := by
  obtain hc | ⟨a, -, -, hc⟩ := hc
  · have hstop := Pipeline.stop_advanceRun_ne_cancelled hcancel (.start r.options r.files r.file)
    exact hc.error.trans (if_neg hstop)
  · exact hc.error

/-- A request that shares a store with requests that want the same stages tells what it tells
alone. -/
theorem Request.Told.matches {rs : List Request} {r : Request} {c d : CompileOutcome}
    (hc : r.Told rs c)
    (hd : d.Tells r.options (Pipeline.advanceRun r.options (.start r.options r.files r.file)))
    (hapart : ∀ q ∈ rs, q.Apart r)
    (hwants : ∀ q ∈ rs, Pipeline.wants q.options .cpu = Pipeline.wants r.options .cpu)
    (hcancel : r.options.cancelled = false) :
  c.result.Matches r.options.timings d.result
  := by
  obtain hc | ⟨a, ha, hrun, hc⟩ := hc
  · exact hc.matches hd (.refl _) rfl rfl rfl
  · have hcpu : Pipeline.wants r.options .cpu = true := by
      obtain ⟨q, hq, -, b, hmakes, -⟩ := ha
      rw [← hwants q hq]
      exact hmakes.wants
    obtain ⟨p, hp, hhealthy, hagrees⟩ := agrees_of_stored_of_wants hapart ha
      (fun _ => Pipeline.wants_of_wants_cpu hcpu) hcancel
    obtain ⟨hartifacts, hreached, hbag⟩ := hhealthy.takeOver r.files hagrees
    obtain ⟨alloc, -, halloc, -⟩ := hhealthy.exists_allocation hagrees
    have hgraph : a.graph = some _ := hagrees.graph.trans (hhealthy.graph (by omega))
    have houtput : p.result.output = (Pipeline.start r.options r.files r.file).result.output := by
      have hall := @Pipeline.output_advanceAll r.options _ (fun _ h => h)
        (.start r.options r.files r.file)
      rw [hp] at hall
      exact hall
    rw [Pipeline.advanceRun_of_run_eq_false hrun, hp] at hd
    apply hc.matches hd hartifacts hreached hbag
    exact (Pipeline.output_takeOver _ hgraph halloc).trans houtput.symm

end ThreeAddress
