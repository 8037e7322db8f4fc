import ThreeAddress.Proofs.Code.Redeclaration
import ThreeAddress.Proofs.Code.WellFormed
import ThreeAddress.Proofs.Diagnostic.Bag
import ThreeAddress.Proofs.Pipeline.Advance
import ThreeAddress.Proofs.Syntax.Acceptance
import ThreeAddress.Proofs.Token.Lexing

/-!
# How compilations end

A stage that fails has found something wrong with the source: no source makes the compiler fail at
its own work.  The invariant `Healthy` says what is known after the first stages; every stage keeps
it or ends the compilation with an error in the bag.
-/

namespace ThreeAddress

open Grammar

/-- The findings at the end of a compilation without a run, by the stage that was reached last. -/
inductive Ending : Option Stage → List Diagnostic → Prop where
  /-- Tokens could not be read. -/
  | lexical {ds : List Diagnostic} :
      ds ≠ [] → (∀ d ∈ ds, d.severity = .error ∧ Code.area? d.code.number = some "LEX") →
      Ending none ds
  /-- The tokens are no program. -/
  | syntactic {ds : List Diagnostic} :
      (∀ d ∈ ds, Code.area? d.code.number = some "SYN") → (∃ d ∈ ds, d.severity = .error) →
      Ending (some .lex) ds
  /-- A name is declared twice. -/
  | redeclaration {d : Diagnostic} :
      d.severity = .error → d.code = .redeclaredVariable ∨ d.code = .redeclaredFunction →
      Ending (some .parse) [d]
  /-- Nothing is wrong; some variables have no register. -/
  | complete {ds : List Diagnostic} :
      (∀ d ∈ ds, d.severity = .info ∧ d.code = .spilled) → Ending (some .cpu) ds

/-- The file is a program with the code and the symbols. -/
structure File.Means (file : File) (ss : List Stmt) (code : Program) (table : SymbolTable) :
    Prop where
  clean : ∀ l ∈ file.lex, l.problem = none
  program : IsProgram (fileTokens file.lex) ss
  code : generate ss {} = (.ok code, table)

namespace Pipeline

variable {o : CompileOptions} {file : File} {p : Pipeline}

/-- The findings about the variables of an allocation without a register, up to the limit. -/
def spills (o : CompileOptions) (file : File) (a : Option Allocation) : List Diagnostic :=
  match a with
  | none => []
  | some a =>
    let ds := a.spilled.map (a.spillFinding { file := file.id })
    if o.maxDiagnostics.toNat = 0 then ds else ds.take o.maxDiagnostics.toNat

/-- What is known of a file after `n` stages. -/
structure Healthy (o : CompileOptions) (file : File) (n : Nat) (p : Pipeline) : Prop where
  source : p.result.file = file
  reached : p.result.reached = (Stage.order.take n).getLast?
  cached : p.result.cached = false
  stats : p.result.stats = none
  limit : p.result.bag.limit = o.maxDiagnostics.toNat
  items : p.result.bag.items = spills o file p.result.allocation
  clean : 0 < n → ∀ l ∈ file.lex, l.problem = none
  program : 1 < n → IsProgram (fileTokens file.lex) p.result.statements
  code : 2 < n → generate p.result.statements {} = (.ok p.result.program, p.table)
    ∧ p.result.symbols = some p.table.symbols
  graph : 3 < n → p.result.graph = some (Graph.build p.result.program)
  allocation : p.result.allocation =
    if 4 < n then some (Allocation.ofProgram o.registers p.result.graph p.result.program) else none
  machine : 5 < n → p.result.program.lower p.table = .ok p.result.machine

/-- A stage has failed because of the source. -/
structure Broken (file : File) (p : Pipeline) : Prop where
  faulty : ∀ ss code table, ¬ file.Means ss code table
  ending : Ending p.result.reached p.result.bag.items
  failed : p.result.reached ≠ some .cpu
  stats : p.result.stats = none
  cached : p.result.cached = false

/-- A stage has gone on to the next or has failed because of the source. -/
def GoesOn (o : CompileOptions) (file : File) (n : Nat) (q : Pipeline × Option Stop) : Prop :=
  q.2 = none ∧ Healthy o file n q.1 ∨ q.2 = some .stageFailed ∧ Broken file q.1

theorem healthy_start (files : FileSet) (file : File) :
  Healthy o file 0 (start o files file)
  where
  source := rfl
  reached := rfl
  cached := rfl
  stats := rfl
  limit := rfl
  items := rfl
  clean := by simp
  program := by simp
  code := by simp
  graph := by simp
  allocation := rfl
  machine := by simp

/-- Before registers are allocated there are no findings. -/
theorem Healthy.items_eq_nil {n : Nat} (h : Healthy o file n p) (hn : n ≤ 4) :
  p.result.bag.items = []
  := by
  rw [h.items, h.allocation, if_neg (by omega)]
  rfl

theorem advance_of_failed {stage : Stage} {f : Body} (hcancel : o.cancelled = false)
    (h : (f p).2.failed = true) :
  advance o stage f p = ((f p).1, some .stageFailed)
  := by
  rw [advance, hcancel, if_neg (by simp), if_pos h]

theorem advance_of_succeeded {stage : Stage} {f : Body} (hcancel : o.cancelled = false)
    (h : (f p).2.failed = false) :
  advance o stage f p = ((f p).1.reach stage, none)
  := by
  rw [advance, hcancel, if_neg (by simp), h, if_neg (by simp)]

/-- A stage that fails leaves what was reached before, and an ending at that stage. -/
theorem Healthy.broken {n : Nat} (h : Healthy o file n p) (hn : n < 6) {q : Pipeline}
    (hsame : q.result.reached = p.result.reached ∧ q.result.stats = p.result.stats
      ∧ q.result.cached = p.result.cached)
    (hfaulty : ∀ ss code table, ¬ file.Means ss code table)
    (hending : Ending (Stage.order.take n).getLast? q.result.bag.items) :
  Broken file q
  := by
  obtain ⟨hreached, hstats, hcached⟩ := hsame
  have hlast : ∀ n < 6, (Stage.order.take n).getLast? ≠ some .cpu := by decide
  rw [h.reached] at hreached
  refine ⟨hfaulty, ?_, ?_, hstats.trans h.stats, hcached.trans h.cached⟩
  · rw [hreached]
    exact hending
  · rw [hreached]
    exact hlast n hn

/-! ### The front end -/

/-- The findings of the lexer are errors. -/
theorem severity_lex {ls : List Lexed} {d : Diagnostic} (hd : d ∈ ls.filterMap (·.diagnostic?)) :
  d.severity = .error ∧ Code.area? d.code.number = some "LEX"
  := by
  obtain ⟨l, -, hl⟩ := List.mem_filterMap.mp hd
  rw [Lexed.diagnostic?, Option.map_eq_some_iff] at hl
  obtain ⟨problem, -, rfl⟩ := hl
  refine ⟨rfl, ?_⟩
  cases problem with
  | unknownChar c => rfl
  | newlineInString => rfl
  | unterminatedString => rfl
  | badNumber digits => rfl

theorem Healthy.lexing (h : Healthy o file 0 p) (hcancel : o.cancelled = false) :
  GoesOn o file 1 (advance o .lex (body Stage.lexing) p)
  := by
  obtain rfl := h.source
  have hitems := h.items_eq_nil (by omega)
  have hbag : (body Stage.lexing p).1.result.bag
      = p.result.bag.addAll (p.result.file.lex.filterMap (·.diagnostic?)) := rfl
  have hfailed : (body Stage.lexing p).2.failed = (body Stage.lexing p).1.result.bag.hasErrors :=
    rfl
  rw [hbag] at hfailed
  rcases hds : p.result.file.lex.filterMap (·.diagnostic?) with _ | ⟨d, ds⟩
  · left
    rw [hds] at hbag hfailed
    rw [advance_of_succeeded hcancel (hfailed.trans (Bag.hasErrors_of_nil hitems))]
    refine ⟨rfl, ?_⟩
    exact
      { h with
        reached := rfl
        items := (congrArg Bag.items hbag).trans h.items
        limit := (congrArg Bag.limit hbag).trans h.limit
        clean := by
          intro _ l hl
          have hnone := List.filterMap_eq_nil_iff.mp hds l hl
          rwa [Lexed.diagnostic?, Option.map_eq_none_iff] at hnone
        program := by simp
        code := by simp
        graph := by simp
        allocation := h.allocation
        machine := by simp }
  · right
    have hhead : (p.result.bag.addAll (d :: ds)).items.head? = some d :=
      Bag.head?_items_addAll hitems _
    have herrors : (p.result.bag.addAll (d :: ds)).hasErrors = true :=
      Bag.hasErrors_of_head? hhead (severity_lex (hds ▸ List.mem_cons_self)).1
    rw [hds] at hbag hfailed
    rw [advance_of_failed hcancel (hfailed.trans herrors)]
    refine ⟨rfl, h.broken (by omega) ⟨rfl, rfl, rfl⟩ ?_ ?_⟩
    · intro ss code table hmeans
      have hempty : p.result.file.lex.filterMap (·.diagnostic?) = [] := by
        rw [List.filterMap_eq_nil_iff]
        intro l hl
        rw [Lexed.diagnostic?, hmeans.clean l hl]
        rfl
      rw [hempty] at hds
      cases hds
    · rw [hbag]
      apply Ending.lexical (List.ne_nil_of_mem (List.mem_of_head? hhead))
      intro e he
      exact severity_lex (hds ▸ Bag.mem_of_mem_addAll hitems he)

theorem Healthy.valid {n : Nat} (h : Healthy o file n p) (hn : 0 < n) {tok : Token}
    (htok : tok ∈ fileTokens file.lex) :
  tok.kind ≠ .invalid
  := by
  obtain ⟨l, hl, rfl⟩ := List.mem_map.mp ((List.takeWhile_sublist _).subset htok)
  exact File.kind_lex_ne hl (h.clean hn l hl)

theorem Healthy.parsing (h : Healthy o file 1 p) (hcancel : o.cancelled = false) :
  GoesOn o file 2 (advance o .parse (body (Stage.parsing o)) p)
  := by
  obtain rfl := h.source
  have hitems := h.items_eq_nil (by omega)
  let parsed := parse { maxErrors := o.maxDiagnostics.toNat } p.result.file.id 0 p.result.file.lex
  let bag := p.result.bag.addAll (parsed.reports.map (·.diagnostic))
  have hbag : (body (Stage.parsing o) p).1.result.bag = if bag.hasErrors then bag.dedup else bag :=
    rfl
  have hfailed : (body (Stage.parsing o) p).2.failed
      = (if bag.hasErrors then bag.dedup else bag).hasErrors := rfl
  obtain ⟨hnone, hprogram⟩ | ⟨hfaulty, hcodes, r, rs, hsome, hr⟩ :=
    @Parser.parse_cases { maxErrors := o.maxDiagnostics.toNat } p.result.file.id p.result.file.lex
      rfl rfl (fun _ => h.valid (by omega))
  · left
    have hempty : bag = p.result.bag := by
      calc bag
        _ = p.result.bag.addAll (parsed.reports.map (·.diagnostic)) := rfl
        _ = p.result.bag := by rw [show parsed.reports = [] from hnone]; rfl
    have herrors : bag.hasErrors = false := Bag.hasErrors_of_nil (hempty ▸ hitems)
    rw [herrors, if_neg (by simp), hempty] at hbag
    rw [herrors, if_neg (by simp), herrors] at hfailed
    rw [advance_of_succeeded hcancel hfailed]
    refine ⟨rfl, ?_⟩
    exact
      { h with
        reached := rfl
        items := (congrArg Bag.items hbag).trans h.items
        limit := (congrArg Bag.limit hbag).trans h.limit
        clean := fun _ => h.clean (by omega)
        program := fun _ => hprogram
        code := by simp
        graph := by simp
        allocation := h.allocation
        machine := by simp }
  · right
    have hhead : bag.items.head? = some r.diagnostic := by
      calc bag.items.head?
        _ = (parsed.reports.map (·.diagnostic)).head? := Bag.head?_items_addAll hitems _
        _ = some r.diagnostic := by rw [show parsed.reports = r :: rs from hsome]; rfl
    rw [Bag.hasErrors_of_head? hhead hr, if_pos rfl] at hbag hfailed
    have hfirst : bag.dedup.items.head? = some r.diagnostic :=
      (Bag.head?_items_dedup bag).trans hhead
    rw [advance_of_failed hcancel (hfailed.trans (Bag.hasErrors_of_head? hfirst hr))]
    refine ⟨rfl, h.broken (by omega) ⟨rfl, rfl, rfl⟩ ?_ ?_⟩
    · intro ss code table hmeans
      exact hfaulty ss hmeans.program
    · rw [hbag]
      refine Ending.syntactic ?_ ⟨_, List.mem_of_head? hfirst, hr⟩
      intro d hd
      have hd := Bag.mem_of_mem_addAll hitems (Bag.mem_of_mem_dedup hd)
      obtain ⟨r', hr', rfl⟩ := List.mem_map.mp hd
      exact hcodes r' hr'

/-! ### The back end -/

/-- The code of a redeclaration. -/
theorem code_redeclared (cause : SymbolError) (span : Span) :
  (GenError.redeclared cause span).code = .redeclaredVariable
    ∨ (GenError.redeclared cause span).code = .redeclaredFunction
  := by
  cases cause with
  | redeclaredFunction name => exact .inr rfl
  | _ => exact .inl rfl

theorem Healthy.generating (h : Healthy o file 2 p) (hcancel : o.cancelled = false) :
  GoesOn o file 3 (advance o .tac (fun p =>
    let (result, report, table) := Stage.generating p.result
    ({ p with result, table }, report)) p)
  := by
  have hitems := h.items_eq_nil (by omega)
  obtain ⟨program, table, hok⟩ | ⟨cause, span, table, herror⟩ :=
    generate_of_isProgram (h.program (by omega)) {}
  · left
    have hcheck := (wellFormed_of_generate hok).check?_eq_none
    have hstage := Stage.generating_of_ok hok hcheck
    rw [advance_of_succeeded hcancel (by dsimp only; rw [hstage]), hstage]
    refine ⟨rfl, ?_⟩
    exact
      { h with
        reached := rfl
        items := h.items
        clean := fun _ => h.clean (by omega)
        program := fun _ => h.program (by omega)
        code := fun _ => ⟨hok, rfl⟩
        graph := by simp
        allocation := h.allocation
        machine := by simp }
  · right
    have hstage := Stage.generating_of_error herror
    rw [advance_of_failed hcancel (by dsimp only; rw [hstage]), hstage]
    refine ⟨rfl, h.broken (by omega) ⟨rfl, rfl, rfl⟩ ?_ ?_⟩
    · intro ss code table' hmeans
      have hcode := hmeans.code
      rw [Parser.isProgram_unique hmeans.program (h.program (by omega)), herror] at hcode
      cases hcode
    · change Ending _ (p.result.bag.add _).items
      rw [Bag.items_add_of_nil hitems]
      exact Ending.redeclaration rfl (code_redeclared cause span)

/-- After generation the code is well formed. -/
theorem Healthy.wellFormed {n : Nat} (h : Healthy o file n p) (hn : 2 < n) :
  p.result.program.WellFormed
  := wellFormed_of_generate (h.code hn).1

theorem Healthy.graphing (h : Healthy o file 3 p) (hcancel : o.cancelled = false) :
  GoesOn o file 4 (advance o .cfg (body Stage.graphing) p)
  := by
  left
  have hstage := Stage.graphing_eq p.result
  rw [(h.wellFormed (by omega)).dangling_build] at hstage
  rw [advance_of_succeeded hcancel (by rw [body, hstage]), body, hstage]
  refine ⟨rfl, ?_⟩
  exact
    { h with
      reached := rfl
      items := h.items
      clean := fun _ => h.clean (by omega)
      program := fun _ => h.program (by omega)
      code := fun _ => h.code (by omega)
      graph := fun _ => rfl
      allocation := h.allocation
      machine := by simp }

theorem Healthy.allocating (h : Healthy o file 4 p) (hcancel : o.cancelled = false) :
  GoesOn o file 5 (advance o .regalloc (body (Stage.allocating o)) p)
  := by
  left
  obtain rfl := h.source
  have hitems := h.items_eq_nil (by omega)
  have hstage := Stage.allocating_eq o p.result
  rw [advance_of_succeeded hcancel (by rw [body, hstage]), body, hstage]
  refine ⟨rfl, ?_⟩
  exact
    { h with
      reached := rfl
      limit := (Bag.limit_addAll ..).trans h.limit
      items := by
        change (p.result.bag.addAll _).items = _
        rw [Bag.items_addAll_of_nil hitems, h.limit]
        rfl
      clean := fun _ => h.clean (by omega)
      program := fun _ => h.program (by omega)
      code := fun _ => h.code (by omega)
      graph := fun _ => h.graph (by omega)
      allocation := rfl
      machine := by simp }

theorem Healthy.emitting (h : Healthy o file 5 p) (hcancel : o.cancelled = false) :
  GoesOn o file 6 (advance o .cpu (fun p => body (Stage.emitting p.table) p) p)
  := by
  left
  obtain ⟨machine, hmachine⟩ := (h.wellFormed (by omega)).lower_eq_ok p.table
  have hstage := Stage.emitting_of_ok hmachine
  rw [advance_of_succeeded hcancel (by rw [body, hstage]), body, hstage]
  refine ⟨rfl, ?_⟩
  exact
    { h with
      reached := rfl
      items := h.items
      clean := fun _ => h.clean (by omega)
      program := fun _ => h.program (by omega)
      code := fun _ => h.code (by omega)
      graph := fun _ => h.graph (by omega)
      allocation := h.allocation
      machine := fun _ => hmachine }

/-- A file has only one meaning. -/
theorem Healthy.eq_of_means {n : Nat} (h : Healthy o file n p) {ss : List Stmt} {code : Program}
    {table : SymbolTable} (hmeans : file.Means ss code table) (hn : 2 < n) :
  p.result.statements = ss ∧ p.result.program = code ∧ p.table = table
  := by
  have hstatements : p.result.statements = ss :=
    Parser.isProgram_unique (h.program (by omega)) hmeans.program
  refine ⟨hstatements, ?_⟩
  have hcode := (h.code hn).1
  rw [hstatements, hmeans.code] at hcode
  cases hcode
  exact ⟨rfl, rfl⟩

/-! ### All stages -/

/-- Every stage goes on to the next or fails because of the source. -/
theorem Healthy.step {n : Nat} (h : Healthy o file n p) (hcancel : o.cancelled = false)
    {stage : Stage} {f : Body} (hn : (stages o)[n]? = some (stage, f)) :
  GoesOn o file (n + 1) (advance o stage f p)
  := by
  match n, hn with
  | 0, hn =>
      obtain ⟨rfl, rfl⟩ := hn
      exact h.lexing hcancel
  | 1, hn =>
      obtain ⟨rfl, rfl⟩ := hn
      exact h.parsing hcancel
  | 2, hn =>
      obtain ⟨rfl, rfl⟩ := hn
      exact h.generating hcancel
  | 3, hn =>
      obtain ⟨rfl, rfl⟩ := hn
      exact h.graphing hcancel
  | 4, hn =>
      obtain ⟨rfl, rfl⟩ := hn
      exact h.allocating hcancel
  | 5, hn =>
      obtain ⟨rfl, rfl⟩ := hn
      exact h.emitting hcancel

/-- The stages go on up to the first that is not wanted, or one fails because of the source. -/
theorem Healthy.advanceAll {n : Nat} (h : Healthy o file n p) (hle : n ≤ (stages o).length)
    (hcancel : o.cancelled = false) {fs : List (Stage × Body)} (hfs : (stages o).drop n = fs) :
  let q := advanceAll o fs p
  q.2 = some .stageFailed ∧ Broken file q.1 ∨
    q.2 = none ∧ ∃ m ≤ (stages o).length, Healthy o file m q.1
      ∧ ∀ x ∈ (stages o)[m]?, wants o x.1 = false
  := by
  induction fs generalizing n p with
  | nil =>
      refine .inr ⟨rfl, n, hle, h, ?_⟩
      rw [List.getElem?_eq_none (List.drop_eq_nil_iff.mp hfs)]
      simp
  | cons x fs ih =>
      obtain ⟨stage, f⟩ := x
      have hn : (stages o)[n]? = some (stage, f) := by
        rw [← List.head?_drop, hfs, List.head?_cons]
      have hrest : (stages o).drop (n + 1) = fs := by
        rw [← List.tail_drop, hfs, List.tail_cons]
      rw [Pipeline.advanceAll]
      split
      · rcases hadvance : advance o stage f p with ⟨q, stop⟩
        obtain ⟨rfl, hq⟩ | ⟨rfl, hq⟩ := hadvance ▸ h.step hcancel hn
        · exact ih hq (List.getElem?_eq_some_iff.mp hn).1 hrest
        · exact .inl ⟨rfl, hq⟩
      · next hwants =>
        refine .inr ⟨rfl, n, hle, h, ?_⟩
        rw [hn]
        simpa using hwants

/-- Up to machine code every stage is wanted. -/
theorem wants_of_mem_stages (hlast : lastStage o = .cpu) {x : Stage × Body} (hx : x ∈ stages o) :
  wants o x.1 = true
  := by
  rw [wants, hlast]
  simp only [stages, List.mem_cons, List.not_mem_nil, or_false] at hx
  obtain rfl | rfl | rfl | rfl | rfl | rfl := hx
  all_goals rfl

/-- If all stages are wanted, they are all gone through, or one fails because of the source. -/
theorem advanceAll_start_of_wants (hcancel : o.cancelled = false)
    (hall : ∀ x ∈ stages o, wants o x.1 = true) (files : FileSet) (file : File) :
  let q := advanceAll o (stages o) (start o files file)
  q.2 = some .stageFailed ∧ Broken file q.1 ∨ q.2 = none ∧ Healthy o file 6 q.1
  := by
  obtain hbroken | ⟨hnone, m, hle, hm, hwants⟩ :=
    (healthy_start files file).advanceAll (Nat.zero_le _) hcancel rfl
  · exact .inl hbroken
  · right
    refine ⟨hnone, ?_⟩
    obtain hlt | rfl := hle.lt_or_eq
    · have hwanted := hall _ (List.getElem_mem hlt)
      rw [hwants _ (List.getElem?_eq_getElem hlt)] at hwanted
      cases hwanted
    · exact hm

theorem advanceAll_start (hcancel : o.cancelled = false) (hlast : lastStage o = .cpu)
    (files : FileSet) (file : File) :
  let q := advanceAll o (stages o) (start o files file)
  q.2 = some .stageFailed ∧ Broken file q.1 ∨ q.2 = none ∧ Healthy o file 6 q.1
  := advanceAll_start_of_wants hcancel (fun _ => wants_of_mem_stages hlast) files file

theorem severity_spills {a : Option Allocation} {d : Diagnostic} (hd : d ∈ spills o file a) :
  d.severity = .info ∧ d.code = .spilled
  := by
  cases a with
  | none => cases hd
  | some a =>
      have hd : d ∈ a.spilled.map (a.spillFinding { file := file.id }) := by
        rw [spills] at hd
        split at hd
        · exact hd
        · exact List.mem_of_mem_take hd
      obtain ⟨name, -, rfl⟩ := List.mem_map.mp hd
      exact ⟨rfl, rfl⟩

/-- A file that went through all stages has only findings about its registers. -/
theorem Healthy.ending (h : Healthy o file 6 p) :
  Ending p.result.reached p.result.bag.items
  := by
  rw [h.reached]
  apply Ending.complete
  intro d hd
  rw [h.items] at hd
  exact severity_spills hd

end Pipeline

/-- The codes of failures of the compiler itself. -/
def Code.internal : List Code := [.malformedNode, .danglingJump, .graphInvariant]

/-- No finding tells of a failure of the compiler itself. -/
theorem Ending.not_internal {reached : Option Stage} {ds : List Diagnostic}
    (h : Ending reached ds) {d : Diagnostic} (hd : d ∈ ds) :
  d.code ∉ Code.internal
  := by
  cases h with
  | lexical hne hds =>
      have hlex : ∀ code ∈ Code.internal, Code.area? code.number ≠ some "LEX" := by decide
      intro hcode
      exact hlex _ hcode (hds d hd).2
  | syntactic hds herror =>
      have hsyn : ∀ code ∈ Code.internal, Code.area? code.number ≠ some "SYN" := by decide
      intro hcode
      exact hsyn _ hcode (hds d hd)
  | redeclaration herror hcode =>
      obtain rfl := List.mem_singleton.mp hd
      obtain hcode | hcode := hcode
      · rw [hcode]
        decide
      · rw [hcode]
        decide
  | complete hds =>
      rw [(hds d hd).2]
      decide

variable {σ : Type}

/-- The times of a compilation stand after all other findings. -/
theorem CompileOutcome.Tells.items {c : CompileOutcome} {o : CompileOptions}
    {q : Pipeline × Option Stop} (h : c.Tells o q) :
  ∃ times, c.result.bag.items = q.1.result.bag.items ++ times
    ∧ times.length = (if o.timings then 1 else 0)
    ∧ ∀ d ∈ times, d.severity = .info ∧ d.code = .timings
  := by
  have hbag := h.bag
  split
  · next htimings =>
    rw [if_pos htimings] at hbag
    obtain ⟨name, report, hbag⟩ := hbag
    refine ⟨[Pipeline.timingDiagnostic name report], ?_, rfl, ?_⟩
    · rw [hbag, Bag.items_addBeyond]
    · intro d hd
      rw [List.mem_singleton.mp hd]
      exact ⟨rfl, rfl⟩
  · next htimings =>
    rw [if_neg htimings] at hbag
    exact ⟨[], by rw [hbag, List.append_nil], rfl, by simp⟩

/-- No source makes the compiler fail at its own work. -/
theorem compile_ends (host : CompileHost (StateM σ)) (o : CompileOptions) (files : FileSet)
    (file : File) (tracer : Tracer) (parent : Nat) (s : σ) (hstore : host.store = none)
    (hcancel : o.cancelled = false) (hlast : Pipeline.lastStage o = .cpu) (hrun : o.run = false) :
  let c := ((compile host o files file tracer parent).run s).1
  c.error = none
    ∧ (∃ findings times, c.result.bag.items = findings ++ times
      ∧ times.length = (if o.timings then 1 else 0)
      ∧ (∀ d ∈ times, d.severity = .info ∧ d.code = .timings)
      ∧ Ending c.result.reached findings)
    ∧ ∀ d ∈ c.result.bag.items, d.code ∉ Code.internal
  := by
  intro c
  obtain ⟨htells, -⟩ := tells_without_store hstore o files file tracer parent s
  rw [Pipeline.advanceRun_of_run_eq_false hrun] at htells
  have hstart := Pipeline.advanceAll_start hcancel hlast files file
  generalize Pipeline.advanceAll o (Pipeline.stages o) (.start o files file) = q at htells hstart
  have hending : Ending q.1.result.reached q.1.result.bag.items := by
    obtain ⟨-, hbroken⟩ | ⟨-, hhealthy⟩ := hstart
    · exact hbroken.ending
    · exact hhealthy.ending
  have herror : c.error = none := by
    rw [htells.error, if_neg]
    obtain ⟨hstop, -⟩ | ⟨hstop, -⟩ := hstart
    · simp [hstop]
    · simp [hstop]
  obtain ⟨times, hitems, hlength, htimes⟩ := htells.items
  refine ⟨herror, ⟨_, times, hitems, hlength, htimes, htells.reached ▸ hending⟩, ?_⟩
  intro d hd
  rw [hitems, List.mem_append] at hd
  obtain hd | hd := hd
  · exact hending.not_internal hd
  · rw [(htimes d hd).2]
    decide

/-- A host whose clock stands still. -/
def stillHost : CompileHost (StateM Unit) := { now := pure 0 }

theorem compile_ends_redeclared :
  let file : File := { content := "let x = 1; let x = 2;" }
  let c := ((compile stillHost { last := some .cpu, maxDiagnostics := 1 } {} file {} 0).run ()).1
  c.error = none
    ∧ (∃ findings times, c.result.bag.items = findings ++ times ∧ times.length = 0
      ∧ (∀ d ∈ times, d.severity = .info ∧ d.code = .timings)
      ∧ Ending c.result.reached findings)
    ∧ ∀ d ∈ c.result.bag.items, d.code ∉ Code.internal
  := by
  intro file c
  exact compile_ends stillHost _ {} file {} 0 () rfl rfl rfl rfl

/-! ### A source with a meaning -/

/-- The source `print a + b;` of two variables that are not declared. -/
def undeclaredSum : File := { content := "print a + b;" }

/-- The statement of `undeclaredSum`. -/
def undeclaredSumBody : Stmt :=
  .print ⟨0, 0, 12⟩ (.binary ⟨0, 6, 11⟩ .add (.ident ⟨0, 6, 7⟩ "a") (.ident ⟨0, 10, 11⟩ "b"))

/-- The code of `undeclaredSum`. -/
def undeclaredSumCode : Program :=
  [{ kind := .binary .add, target := .ofTemp 0, left := .var "a", right := .var "b" },
    { kind := .print, source := .ofTemp 0 }]

theorem means_undeclaredSum :
  undeclaredSum.Means [undeclaredSumBody] undeclaredSumCode {}
  := by
  have htokens : fileTokens undeclaredSum.lex
      = ⟨.kwPrint, ⟨0, 0, 5⟩, "print"⟩ :: (([⟨.ident, ⟨0, 6, 7⟩, "a"⟩] ++ ⟨.plus, ⟨0, 8, 9⟩, "+"⟩ ::
        [⟨.ident, ⟨0, 10, 11⟩, "b"⟩]) ++ [⟨.semicolon, ⟨0, 11, 12⟩, ";"⟩]) := by
    decide +kernel
  constructor
  · decide +kernel
  · have hident : ∀ tok : Token, tok.kind = .ident →
        Derives (.operand 7) [tok] [.ident tok.span tok.text] := fun _ => .ident
    have hsum : Derives (.operand 5) ([⟨.ident, ⟨0, 6, 7⟩, "a"⟩] ++ ⟨.plus, ⟨0, 8, 9⟩, "+"⟩ ::
        [⟨.ident, ⟨0, 10, 11⟩, "b"⟩]) [_] :=
      .binary .add ((hident ⟨.ident, ⟨0, 6, 7⟩, "a"⟩ rfl).of_le (by decide))
        ((hident ⟨.ident, ⟨0, 10, 11⟩, "b"⟩ rfl).tighter)
    rw [htokens]
    exact Statements.print rfl rfl (hsum.of_le (by decide))
      (Parser.endsAt_zero.mp (.of_next rfl (by decide) rfl)) (.inl ⟨_, rfl, rfl⟩)
  · rfl

end ThreeAddress
