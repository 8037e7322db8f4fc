import ThreeAddress.Proofs.Pipeline.Schedules
import ThreeAddress.Proofs.Trace.Nesting

/-!
# Compilations in the eyes of a tracer

A compilation asks whether it is cancelled, reads a clock, looks into a store, and has dealings with
a tracer that others use as well: it asks whether a scope is admitted, draws the number of a span,
passes on an event, and completes the notes of a span.  As a course it is nothing but these moves,
one at a time, so that others may move between any two of them.

* A course alone with a host and a tracer is the compilation.
* In a `Course.Step` a move is made, whatever the answer to a question may be; `Course.Turn` is a
  step of one of several courses that share a tracer.  What a directory does is a run of such turns.
-/

namespace ThreeAddress

/-- A computation as its moves. -/
inductive Course (α : Type) where
  | done (a : α)
  | now (rest : Int → Course α)
  | get (key : Digest) (rest : StoreAnswer → Course α)
  | put (key : Digest) (a : Artifacts) (rest : Option Text → Course α)
  /-- Asks whether the computation is cancelled. -/
  | stopped (rest : Bool → Course α)
  /-- Asks whether the tracer admits a scope. -/
  | admits (scope : TraceScope) (rest : Bool → Course α)
  /-- Draws the number of a span. -/
  | draw (rest : Nat → Course α)
  /-- Passes on an event. -/
  | pass (e : TraceEvent) (rest : Course α)
  /-- Completes the notes of a span. -/
  | amend (span : Nat) (extra : Dict Text) (rest : Course α)

namespace Course

variable {α β : Type}

/-- One course after another. -/
def bind : Course α → (α → Course β) → Course β
  | done a, f => f a
  | now rest, f => now fun t => (rest t).bind f
  | get key rest, f => get key fun answer => (rest answer).bind f
  | put key a rest, f => put key a fun message => (rest message).bind f
  | stopped rest, f => stopped fun b => (rest b).bind f
  | admits scope rest, f => admits scope fun b => (rest b).bind f
  | draw rest, f => draw fun n => (rest n).bind f
  | pass e rest, f => pass e (rest.bind f)
  | amend span extra rest, f => amend span extra (rest.bind f)

instance : Monad Course where
  pure := done
  bind := bind

/-! ### The moves of a compilation -/

/-- Opens a span below a parent. -/
def openSpan (time : Int) (scope : TraceScope) (name : Text) (parent : Nat) : Course TraceSpan :=
  admits scope fun admitted =>
    if admitted then
      draw fun id =>
        pass { time, kind := .begins, scope, span := id, parent, thread := 1, name }
          (done { id, parent, scope, thread := 1, name })
    else done { parent }

/-- Adds a note to a span. -/
def note (s : TraceSpan) (key value : Text) : Course TraceSpan :=
  if s.isLive then
    let s := { s with extra := s.extra.insert key value }
    amend s.id s.extra (done s)
  else done s

/-- Adds notes to a span. -/
def noteAll (s : TraceSpan) : List (Text × Text) → Course TraceSpan
  | [] => done s
  | n :: notes => do
    let s ← note s n.1 n.2
    noteAll s notes

/-- Adds notes to a span and closes it. -/
def closeSpan (time : Int) (s : TraceSpan) (notes : List (Text × Text)) (detail : Text) :
    Course Unit := do
  let s ← noteAll s notes
  if s.isLive then
    pass { time, kind := .ends, scope := s.scope, span := s.id, parent := s.parent
           thread := s.thread, name := s.name, detail, extra := s.extra } (done ())
  else done ()

open Pipeline (Body stages beginPhase wants lastStage artifacts traceTime)

/-- The pipeline when a stage begins. -/
def begin (p : Pipeline) (stage : Stage) (began : Int) : Pipeline :=
  { p.announce stage .working none 0 with timer := (beginPhase p.timer stage began).1 }

/-- The pipeline when a stage has ended. -/
def finish (p : Pipeline) (stage : Stage) (report : StageReport) (began ended : Int) (phase : Nat) :
    Pipeline :=
  { p with
    timer := p.timer.map (PhaseTimer.stop · phase report.note ended)
    result := { p.result with
      times := p.result.times.set stage (ended - began)
      reached := if report.failed then p.result.reached else some stage } }

/-- Runs a stage. -/
def runStage (stage : Stage) (f : Body) (p : Pipeline) : Course (Pipeline × Option Stop) :=
  stopped fun cancelled => do
    if cancelled then return (p, some .cancelled)
    let began ← now done
    let span ← openSpan (traceTime began) .pass stage.name p.parent
    let (q, report) := f (begin p stage began)
    let ended ← now done
    let stop := if report.failed then some Stop.stageFailed else none
    let counts := report.counts.map fun (k, n) => (k, Text.ofNat n)
    closeSpan (traceTime ended) span counts ((stop.map Stop.message).getD "ok")
    return (finish q stage report began ended (beginPhase p.timer stage began).2, stop)

/-- Runs stages one after another, as long as they are wanted and succeed. -/
def runStages (o : CompileOptions) :
    List (Stage × Body) → Pipeline → Course (Pipeline × Option Stop)
  | [], p => return (p, none)
  | (stage, f) :: rest, p => do
    if wants o stage then
      match ← runStage stage f p with
      | (p, none) => runStages o rest p
      | (p, some stop) => return (p, some stop)
    else return (p, none)

/-- What an answer of the store makes of the pipeline, and what is said of it. -/
def answered (p : Pipeline) (time : Int) : StoreAnswer → Pipeline × Text
  | .unreadable message => (p, "unreadable: " ++ message)
  | .missing => (p, "miss")
  | .found a =>
    if a.isUsable then
      let q := p.takeOver a
      ({ q with result := { q.result with times := q.result.times.set .cache time } }, "hit")
    else (p, "miss")

/-- Looks for stored artifacts, if there is a store. -/
def restore (stored : Bool) (o : CompileOptions) (p : Pipeline) : Course Pipeline := do
  if !stored || (o.run || (lastStage o).place < Stage.tac.place) then return p
  let began ← now done
  let span ← openSpan (traceTime began) .pass Stage.cache.name p.parent
  let answer ← get (p.key o) done
  let ended ← now done
  let (q, detail) := answered p (ended - began) answer
  closeSpan (traceTime ended) span [] detail
  return q

/-- Stores the artifacts of a complete compilation without errors, if there is a store. -/
def save (stored : Bool) (o : CompileOptions) (p : Pipeline) : Course Pipeline := do
  if !stored || (p.result.reached ≠ some .cpu || p.result.bag.hasErrors) then return p
  match ← put (p.key o) (artifacts p.result) done with
  | none => return p
  | some message =>
    let time ← now done
    let span ← openSpan (traceTime time) .pass "cache-write" p.parent
    closeSpan (traceTime time) span [] message
    return p

/-- Takes a file through the pipeline. -/
def runAll (stored : Bool) (o : CompileOptions) (p : Pipeline) :
    Course (Pipeline × Option Stop) := do
  let p ← restore stored o p
  if p.result.cached then return (p, none)
  match ← runStages o (stages o) p with
  | (p, some stop) => return (p, some stop)
  | (p, none) =>
    let p ← save stored o p
    if o.run then runStage .run (Pipeline.body (Stage.running o)) p else return (p, none)

/-- Tells how a pipeline has ended, and closes its span. -/
def conclude (p : Pipeline) (stop : Option Stop) (began ended : Int) (span : TraceSpan) :
    Course CompileOutcome := do
  let c := { p.concluded stop began ended span with tracer := {} }
  let notes : List (Text × Text) :=
    [("status", (p.status c.error).name), ("diagnostics", Text.ofNat c.result.bag.items.length)]
  closeSpan (traceTime ended) span notes (stageName c.result.reached)
  return c

/-- Compiles a file of a set, below a span of the trace. -/
def compile (stored : Bool) (o : CompileOptions) (files : FileSet) (file : File) (parent : Nat) :
    Course CompileOutcome := do
  let name := if o.displayName.isEmpty then file.path else o.displayName
  let began ← now done
  let span ← openSpan (traceTime began) .file "compile" parent
  let span ← note span "file" name
  let start : Pipeline :=
    { name
      result := { files, file, bag := .ofLimit o.maxDiagnostics }
      parent := if span.isLive then span.id else parent
      timer := if o.timings then some [] else none }
  let (p, stop) ← runAll stored o start
  let ended ← now done
  conclude p stop began ended span

/-- Compiles a file of a directory. -/
def addFile (stored : Bool) (job : DirectoryJob) (f : LoadedFile) : Course DirectoryOutcome :=
  stopped fun cancelled => do
    if cancelled then return { files := job.files, error := some Stop.cancelled.message }
    match f.file with
    | .error e =>
      let (entry, event) := DirectoryOutcome.unreadable job.options f.name e
      return { files := job.files, entries := [entry], events := [event] }
    | .ok file =>
      let o := { job.options with displayName := f.name }
      let r ← compile stored o job.files file job.parent
      let entry : DirectoryEntry := { name := f.name, result := some r.result, bag := r.result.bag }
      return { files := job.files, entries := [entry], events := r.events, error := r.error }

/-- Opens the span of a directory with a number of files. -/
def openDirectory (dir : Text) (count : Nat) (parent : Nat) : Course TraceSpan := do
  let began ← now done
  let span ← openSpan (traceTime began) .driver "compile-dir" parent
  let span ← note span "dir" dir
  note span "files" (Text.ofNat count)

/-- Closes the span of a directory. -/
def closeDirectory (span : TraceSpan) : Course Unit := do
  let ended ← now done
  closeSpan (traceTime ended) span [] []

/-! ### Courses alone with a host and a tracer -/

section

variable {m : Type → Type} [Monad m] (host : CompileHost m) (cancelled : Bool)

/-- Makes all moves. -/
def hold : Course α → Tracer → m (α × Tracer)
  | done a, t => return (a, t)
  | now rest, t => do hold (rest (← host.now)) t
  | get key rest, t => do
    let answer ← host.store.elim (pure .missing) (·.get key)
    hold (rest answer) t
  | put key a rest, t => do
    let message ← host.store.elim (pure none) (·.put key a)
    hold (rest message) t
  | stopped rest, t => hold (rest cancelled) t
  | admits scope rest, t => hold (rest (t.isOn && t.level.admits scope)) t
  | draw rest, t => hold (rest (t.lastSpan + 1)) { t with lastSpan := t.lastSpan + 1 }
  | pass e rest, t => hold rest (t.emit e)
  | amend span extra rest, t => hold rest { t with ring := t.ring.map (·.amend span extra) }

theorem hold_openSpan (time : Int) (scope : TraceScope) (name : Text) (parent : Nat) (t : Tracer) :
  (openSpan time scope name parent).hold host cancelled t
    = pure (t.openSpan time scope name parent).swap
  := by
  rw [openSpan, hold, Tracer.openSpan]
  split
  · rfl
  · rfl

theorem hold_note (s : TraceSpan) (key value : Text) (t : Tracer) :
  (note s key value).hold host cancelled t = pure (t.note s key value).swap
  := by
  rw [note, Tracer.note]
  split
  · rfl
  · rfl

variable [LawfulMonad m]

theorem hold_bind (x : Course α) (f : α → Course β) (t : Tracer) :
  (x >>= f).hold host cancelled t
    = x.hold host cancelled t >>= fun r => (f r.1).hold host cancelled r.2
  := by
  induction x generalizing t with
  | done a => exact (pure_bind (a, t) fun r => (f r.1).hold host cancelled r.2).symm
  | now rest ih =>
      change (host.now >>= fun time => (rest time >>= f).hold host cancelled t)
        = (host.now >>= _) >>= _
      rw [bind_assoc]
      exact bind_congr fun time => ih time t
  | get key rest ih =>
      change (_ >>= fun answer => (rest answer >>= f).hold host cancelled t) = (_ >>= _) >>= _
      rw [bind_assoc]
      exact bind_congr fun answer => ih answer t
  | put key a rest ih =>
      change (_ >>= fun message => (rest message >>= f).hold host cancelled t) = (_ >>= _) >>= _
      rw [bind_assoc]
      exact bind_congr fun message => ih message t
  | stopped rest ih => exact ih _ t
  | admits scope rest ih => exact ih _ t
  | draw rest ih => exact ih _ _
  | pass e rest ih => exact ih _
  | amend span extra rest ih => exact ih _

theorem hold_noteAll (notes : List (Text × Text)) (s : TraceSpan) (t : Tracer) :
  (noteAll s notes).hold host cancelled t
    = pure (notes.foldl (fun r n => r.1.note r.2 n.1 n.2) (t, s)).swap
  := by
  induction notes generalizing s t with
  | nil => rfl
  | cons n notes ih =>
      rw [noteAll, hold_bind, hold_note, pure_bind]
      exact ih _ _

theorem hold_closeSpan (p : Pipeline) (now : Int) (s : TraceSpan) (notes : List (Text × Text))
    (detail : Text) :
  (closeSpan (traceTime now) s notes detail).hold host cancelled p.tracer
    = pure ((), (p.closeSpan now s notes detail).tracer)
  := by
  rw [closeSpan, hold_bind, hold_noteAll, pure_bind]
  let noted := notes.foldl (fun r n => r.1.note r.2 n.1 n.2) (p.tracer, s)
  change _ = pure ((), noted.1.closeSpan (traceTime now) noted.2 detail)
  dsimp only [Prod.swap, Tracer.closeSpan]
  split
  · rfl
  · rfl

theorem hold_closeSpan_pure (p : Pipeline) (now : Int) (s : TraceSpan)
    (notes : List (Text × Text)) (detail : Text) (a : α) :
  (closeSpan (traceTime now) s notes detail >>= fun _ => pure a).hold host cancelled p.tracer
    = pure (a, (p.closeSpan now s notes detail).tracer)
  := by
  rw [hold_bind, hold_closeSpan, pure_bind]
  rfl

/-- The stage does not look at the trace. -/
def Untraced (f : Body) : Prop :=
  ∀ p t, f { p with tracer := t } = ({ (f p).1 with tracer := t }, (f p).2)

/-- A pipeline beside its trace. -/
def apart (t : Tracer) (r : Pipeline × Option Stop) : (Pipeline × Option Stop) × Tracer :=
  (({ r.1 with tracer := t }, r.2), r.1.tracer)

theorem hold_runStage (o : CompileOptions) (stage : Stage) {f : Body} (hf : Untraced f)
    (p : Pipeline) (t : Tracer) :
  (runStage stage f p).hold host o.cancelled t
    = apart p.tracer <$> Pipeline.runStage host o stage f { p with tracer := t }
  := by
  rw [runStage, hold, Pipeline.runStage]
  cases o.cancelled with
  | true =>
      rw [if_pos rfl, if_pos rfl, map_pure]
      rfl
  | false =>
      rw [if_neg (by simp), if_neg (by simp), map_bind]
      apply bind_congr
      intro began
      change ((openSpan _ _ _ _ >>= _ : Course _).hold host false t) = _
      rw [hold_bind, hold_openSpan, pure_bind]
      let opened := t.openSpan (traceTime began) .pass stage.name p.parent
      let phase := (beginPhase p.timer stage began).2
      -- What the stage makes is the same whatever has happened to the trace.
      have htraced : f { begin p stage began with tracer := opened.1 } = _ := hf _ _
      have hkept : (f (begin p stage began)).1.tracer = p.tracer :=
        congrArg (·.1.tracer) (hf (begin p stage began) p.tracer)
      change _ = apart p.tracer <$> (host.now >>= fun ended =>
        let r := f { begin p stage began with tracer := opened.1 }
        let stop := if r.2.failed then some Stop.stageFailed else none
        let counts := r.2.counts.map fun (k, n) => (k, Text.ofNat n)
        pure ((finish r.1 stage r.2 began ended phase).closeSpan ended opened.2 counts
          ((stop.map Stop.message).getD "ok"), stop))
      rw [htraced, map_bind]
      generalize f (begin p stage began) = r at hkept
      obtain ⟨q, report⟩ := r
      apply bind_congr
      intro ended
      rw [map_pure]
      rw [apart, ← hkept]
      exact hold_closeSpan_pure host false
        (finish { q with tracer := opened.1 } stage report began ended phase) ended opened.2 _ _ _

theorem hold_runStages (o : CompileOptions) {fs : List (Stage × Body)}
    (hfs : ∀ x ∈ fs, Untraced x.2) (p : Pipeline) (t : Tracer) :
  (runStages o fs p).hold host o.cancelled t
    = apart p.tracer <$> Pipeline.runStages host o fs { p with tracer := t }
  := by
  induction fs generalizing p t with
  | nil =>
      rw [Pipeline.runStages, map_pure]
      rfl
  | cons x fs ih =>
      obtain ⟨stage, f⟩ := x
      obtain ⟨hf, hfs⟩ := List.forall_mem_cons.mp hfs
      rw [runStages, Pipeline.runStages]
      split
      · rw [hold_bind, hold_runStage host o stage hf, map_bind, bind_map_left]
        apply bind_congr
        rintro ⟨q, _ | stop⟩
        · exact ih hfs { q with tracer := p.tracer } q.tracer
        · rw [map_pure]
          rfl
      · rw [map_pure]
        rfl

theorem untraced_body (g : CompileResult → CompileResult × StageReport) :
  Untraced (Pipeline.body g)
  := fun _ _ => rfl

theorem untraced_of_mem_stages {o : CompileOptions} {x : Stage × Body} (h : x ∈ stages o) :
  Untraced x.2
  := by
  simp only [stages, List.mem_cons, List.not_mem_nil, or_false] at h
  obtain rfl | rfl | rfl | rfl | rfl | rfl := h
  · exact untraced_body Stage.lexing
  · exact untraced_body (Stage.parsing o)
  · exact fun p t => rfl
  · exact untraced_body Stage.graphing
  · exact untraced_body (Stage.allocating o)
  · exact fun p t => untraced_body (Stage.emitting p.table) p t

theorem hold_restore (o : CompileOptions) (p : Pipeline) (t : Tracer) :
  (restore host.store.isSome o p).hold host cancelled t
    = (fun r => ({ r with tracer := p.tracer }, r.tracer))
      <$> Pipeline.restore host o { p with tracer := t }
  := by
  rw [restore, Pipeline.restore]
  cases hstore : host.store with
  | none =>
      rw [map_pure]
      rfl
  | some store =>
      rw [Option.isSome_some, Bool.not_true, Bool.false_or]
      cases o.run || decide ((lastStage o).place < Stage.tac.place) with
      | true =>
          rw [if_pos rfl]
          change _ = _ <$> pure _
          rw [map_pure]
          rfl
      | false =>
          let opened := fun began => t.openSpan (traceTime began) .pass Stage.cache.name p.parent
          change (host.now >>= fun began =>
              ((openSpan _ _ _ _ >>= _ : Course _).hold host cancelled t))
            = _ <$> (host.now >>= fun began => store.get (p.key o) >>= fun answer => host.now >>= _)
          rw [map_bind]
          apply bind_congr
          intro began
          rw [hold_bind, hold_openSpan, pure_bind]
          change (host.store.elim (pure .missing) (·.get (p.key o)) >>= fun answer =>
            host.now >>= _) = _
          rw [hstore, map_bind]
          apply bind_congr
          intro answer
          rw [map_bind]
          apply bind_congr
          intro ended
          refine (hold_closeSpan_pure host cancelled { p with tracer := (opened began).1 } ended
            (opened began).2 [] _ _).trans ?_
          cases answer with
          | unreadable | missing =>
              change _ = _ <$> pure _
              rw [map_pure]
              rfl
          | found a =>
              dsimp only [answered]
              cases a.isUsable with
              | true | false =>
                  change _ = _ <$> pure _
                  rw [map_pure]
                  rfl

theorem hold_save (o : CompileOptions) (p : Pipeline) (t : Tracer) :
  (save host.store.isSome o p).hold host cancelled t
    = (fun r => ({ r with tracer := p.tracer }, r.tracer))
      <$> Pipeline.save host o { p with tracer := t }
  := by
  rw [save, Pipeline.save]
  cases hstore : host.store with
  | none =>
      rw [map_pure]
      rfl
  | some store =>
      rw [Option.isSome_some, Bool.not_true, Bool.false_or]
      dsimp only
      cases decide (p.result.reached ≠ some .cpu) || p.result.bag.hasErrors with
      | true =>
          change _ = _ <$> pure _
          rw [map_pure]
          rfl
      | false =>
          change (host.store.elim (pure none) (·.put (p.key o) (artifacts p.result)) >>=
            fun message => _) = _ <$> (store.put (p.key o) (artifacts p.result) >>= _)
          rw [hstore, map_bind]
          apply bind_congr
          intro message
          cases message with
          | none =>
              change _ = _ <$> pure _
              rw [map_pure]
              rfl
          | some message =>
              change (host.now >>= fun time => _) = _ <$> (host.now >>= _)
              rw [map_bind]
              apply bind_congr
              intro time
              let opened := t.openSpan (traceTime time) .pass "cache-write" p.parent
              change ((openSpan _ _ _ _ >>= _ : Course _).hold host cancelled t) = _ <$> pure _
              rw [hold_bind, hold_openSpan, pure_bind, map_pure]
              exact hold_closeSpan_pure host cancelled { p with tracer := opened.1 } time opened.2
                [] message p

theorem hold_runAll (o : CompileOptions) (p : Pipeline) (t : Tracer) :
  (runAll host.store.isSome o p).hold host o.cancelled t
    = apart p.tracer <$> Pipeline.runAll host o { p with tracer := t }
  := by
  rw [runAll, Pipeline.runAll, hold_bind, hold_restore, map_bind, bind_map_left]
  apply bind_congr
  intro p₁
  dsimp only
  split
  · rw [map_pure]
    rfl
  · rw [hold_bind, hold_runStages host o (fun x => untraced_of_mem_stages), map_bind, bind_map_left]
    apply bind_congr
    rintro ⟨p₂, _ | stop⟩
    · change ((save host.store.isSome o { p₂ with tracer := p.tracer } >>= _ : Course _).hold host
        o.cancelled p₂.tracer) = _ <$> (p₂.save host o >>= _)
      rw [hold_bind, hold_save, map_bind, bind_map_left]
      apply bind_congr
      intro p₃
      dsimp only
      split
      · exact hold_runStage host o .run (untraced_body _) { p₃ with tracer := p.tracer } p₃.tracer
      · rw [map_pure]
        rfl
    · rw [map_pure]
      rfl

theorem hold_conclude (p : Pipeline) (stop : Option Stop) (began ended : Int) (span : TraceSpan)
    (t : Tracer) :
  let c := { p with tracer := t }.concluded stop began ended span
  (conclude p stop began ended span).hold host cancelled t
    = pure ({ c with tracer := {} }, c.tracer)
  := by
  obtain ⟨name, result, table, tracer, parent, timer, events⟩ := p
  cases timer with
  | none => exact hold_closeSpan_pure host cancelled { tracer := t } ended span _ _ _
  | some timer => exact hold_closeSpan_pure host cancelled { tracer := t } ended span _ _ _

/-- A course alone with a host and a tracer is the compilation. -/
theorem hold_compile (o : CompileOptions) (files : FileSet) (file : File) (parent : Nat)
    (t : Tracer) :
  (compile host.store.isSome o files file parent).hold host o.cancelled t
    = (fun c => ({ c with tracer := {} }, c.tracer))
      <$> ThreeAddress.compile host o files file t parent
  := by
  rw [compile, ThreeAddress.compile, map_bind]
  apply bind_congr
  intro began
  let name := if o.displayName.isEmpty then file.path else o.displayName
  let opened := t.openSpan (traceTime began) .file "compile" parent
  let noted := opened.1.note opened.2 "file" name
  change (openSpan _ _ _ _ >>= _ : Course _).hold host o.cancelled t = _
  rw [hold_bind, hold_openSpan, pure_bind, hold_bind, Prod.fst_swap, Prod.snd_swap, hold_note,
    pure_bind, hold_bind, hold_runAll, map_bind, bind_map_left]
  apply bind_congr
  rintro ⟨q, stop⟩
  change (host.now >>= fun ended => _) = _ <$> (host.now >>= _)
  rw [map_bind]
  apply bind_congr
  intro ended
  rw [map_pure]
  exact hold_conclude host o.cancelled _ stop began ended noted.2 q.tracer

/-- So is the course of a file of a directory. -/
theorem hold_addFile (job : DirectoryJob) (f : LoadedFile) (t : Tracer) :
  (addFile host.store.isSome job f).hold host job.options.cancelled t
    = (fun a => ({ a with tracer := {} }, a.tracer))
      <$> DirectoryOutcome.addFile host job.options job.parent { files := job.files, tracer := t } f
  := by
  have hnone : ¬ ({ files := job.files, tracer := t } : DirectoryOutcome).error.isSome = true := by
    simp
  rw [addFile, hold, DirectoryOutcome.addFile, if_neg hnone]
  by_cases hcancel : job.options.cancelled = true
  · rw [if_pos hcancel, if_pos hcancel, map_pure]
    rfl
  · rw [if_neg hcancel, if_neg hcancel]
    cases f.file with
    | error e =>
        change _ = _ <$> pure _
        rw [map_pure]
        rfl
    | ok file =>
        have hcompile := hold_compile host { job.options with displayName := f.name } job.files file
          job.parent t
        rw [hold_bind, map_bind, hcompile, bind_map_left]
        apply bind_congr
        intro c
        rw [map_pure]
        rfl

theorem hold_openDirectory (dir : Text) (count : Nat) (parent : Nat) (t : Tracer) :
  (openDirectory dir count parent).hold host cancelled t = do
    let now ← host.now
    let (t, s) := t.openSpan (traceTime now) .driver "compile-dir" parent
    let (t, s) := t.note s "dir" dir
    return (t.note s "files" (Text.ofNat count)).swap
  := by
  apply bind_congr
  intro now
  change (openSpan _ _ _ _ >>= _ : Course _).hold host cancelled t = _
  rw [hold_bind, hold_openSpan, pure_bind, hold_bind, hold_note, pure_bind, hold_note]
  rfl

theorem hold_closeDirectory (s : TraceSpan) (t : Tracer) :
  (closeDirectory s).hold host cancelled t = do
    let now ← host.now
    return ((), t.closeSpan (traceTime now) s [])
  := bind_congr fun now => hold_closeSpan host cancelled { tracer := t } now s [] []

end

/-! ### Moves -/

/-- A tracer and the events that were passed on to it. -/
structure Scene where
  tracer : Tracer := {}
  log : TraceLog := []

/-- A move of a course.  Clock, store and whoever cancels may answer anything. -/
inductive Step : Scene × Course α → Scene × Course α → Prop
  | now {s : Scene} {rest : Int → Course α} (time : Int) : Step (s, now rest) (s, rest time)
  | get {s : Scene} {key : Digest} {rest : StoreAnswer → Course α} (answer : StoreAnswer) :
    Step (s, get key rest) (s, rest answer)
  | put {s : Scene} {key : Digest} {a : Artifacts} {rest : Option Text → Course α}
    (message : Option Text) : Step (s, put key a rest) (s, rest message)
  | stopped {s : Scene} {rest : Bool → Course α} (b : Bool) : Step (s, stopped rest) (s, rest b)
  | admits {s : Scene} {scope : TraceScope} {rest : Bool → Course α} :
    Step (s, admits scope rest) (s, rest (s.tracer.isOn && s.tracer.level.admits scope))
  | draw {s : Scene} {rest : Nat → Course α} :
    Step (s, draw rest)
      ({ s with tracer := { s.tracer with lastSpan := s.tracer.lastSpan + 1 } },
        rest (s.tracer.lastSpan + 1))
  | pass {s : Scene} {e : TraceEvent} {rest : Course α} :
    Step (s, pass e rest) ({ tracer := s.tracer.emit e, log := s.log ++ [e] }, rest)
  | amend {s : Scene} {span : Nat} {extra : Dict Text} {rest : Course α} :
    Step (s, amend span extra rest)
      ({ s with tracer := { s.tracer with ring := s.tracer.ring.map (·.amend span extra) } }, rest)

/-- A move of one of several courses. -/
inductive Turn : Scene × List (Course α) → Scene × List (Course α) → Prop
  | turn {s s' : Scene} {before after : List (Course α)} {x x' : Course α}
    (h : Step (s, x) (s', x')) : Turn (s, before ++ x :: after) (s', before ++ x' :: after)

/-- Moves of several courses, in any order. -/
abbrev Turns : Scene × List (Course α) → Scene × List (Course α) → Prop :=
  Relation.ReflTransGen Turn

/-- What happens to the trace while the loaded files of a directory are compiled: its span is
opened, the courses of the files run beside each other below it, and it is closed. -/
inductive DirectoryRun (stored : Bool) (o : CompileOptions) (files : FileSet) (dir : Text)
    (loaded : List LoadedFile) (outer : Nat) (start finish : Scene) : Prop
  | intro {span : TraceSpan} {s s' : Scene} {outcomes : List DirectoryOutcome}
    (hopen : Turns (start, [openDirectory dir loaded.length outer]) (s, [done span]))
    (hwork : Turns
      (s, loaded.map (addFile stored
        { options := o, files, parent := if span.isLive then span.id else outer }))
      (s', outcomes.map done))
    (hclose : Turns (s', [closeDirectory span]) (finish, [done ()]))

section

variable {σ : Type} (host : CompileHost (StateM σ))

/-- A course can make all its moves without a break. -/
theorem turns_hold (cancelled : Bool) (before after : List (Course α)) (x : Course α) (s : Scene)
    (w : σ) :
  let r := (x.hold host cancelled s.tracer).run w
  ∃ log, Turns (s, before ++ x :: after)
    ({ tracer := r.1.2, log }, before ++ done r.1.1 :: after)
  := by
  induction x generalizing s w with
  | done a => exact ⟨s.log, .refl⟩
  | now rest ih =>
      obtain ⟨log, h⟩ := ih (host.now.run w).1 s (host.now.run w).2
      exact ⟨log, .head (.turn (.now _)) h⟩
  | get key rest ih =>
      let r := (host.store.elim (pure .missing) (·.get key) : StateM σ StoreAnswer).run w
      obtain ⟨log, h⟩ := ih r.1 s r.2
      exact ⟨log, .head (.turn (.get _)) h⟩
  | put key a rest ih =>
      let r := (host.store.elim (pure none) (·.put key a) : StateM σ (Option Text)).run w
      obtain ⟨log, h⟩ := ih r.1 s r.2
      exact ⟨log, .head (.turn (.put _)) h⟩
  | stopped rest ih =>
      obtain ⟨log, h⟩ := ih cancelled s w
      exact ⟨log, .head (.turn (.stopped _)) h⟩
  | admits scope rest ih =>
      obtain ⟨log, h⟩ := ih (s.tracer.isOn && s.tracer.level.admits scope) s w
      exact ⟨log, .head (.turn .admits) h⟩
  | draw rest ih =>
      obtain ⟨log, h⟩ := ih (s.tracer.lastSpan + 1)
        { s with tracer := { s.tracer with lastSpan := s.tracer.lastSpan + 1 } } w
      exact ⟨log, .head (.turn .draw) h⟩
  | pass e rest ih =>
      obtain ⟨log, h⟩ := ih { tracer := s.tracer.emit e, log := s.log ++ [e] } w
      exact ⟨log, .head (.turn .pass) h⟩
  | amend span extra rest ih =>
      obtain ⟨log, h⟩ := ih
        { s with tracer := { s.tracer with ring := s.tracer.ring.map (·.amend span extra) } } w
      exact ⟨log, .head (.turn .amend) h⟩

/-- A compilation is a run of its course. -/
theorem turns_compile (o : CompileOptions) (files : FileSet) (file : File) (tracer : Tracer)
    (parent : Nat) (w : σ) :
  let c := ((ThreeAddress.compile host o files file tracer parent).run w).1
  ∃ log, Turns ({ tracer }, [compile host.store.isSome o files file parent])
    ({ tracer := c.tracer, log }, [done { c with tracer := {} }])
  := by
  have hturns := turns_hold host o.cancelled [] [] (compile host.store.isSome o files file parent)
    { tracer } w
  rw [hold_compile] at hturns
  exact hturns

/-- The next file of a directory is compiled by its course; once the compilation is cancelled, that
has nothing to do. -/
theorem turns_addFile (job : DirectoryJob) {acc : DirectoryOutcome} (hfiles : acc.files = job.files)
    (herror : acc.error.isSome → job.options.cancelled = true) (f : LoadedFile)
    (before after : List (Course DirectoryOutcome)) (log : TraceLog) (w : σ) :
  let acc' := ((DirectoryOutcome.addFile host job.options job.parent acc f).run w).1
  acc'.files = job.files ∧ (acc'.error.isSome → job.options.cancelled = true)
    ∧ ∃ log' a, Turns
      ({ tracer := acc.tracer, log }, before ++ addFile host.store.isSome job f :: after)
      ({ tracer := acc'.tracer, log := log' }, before ++ done a :: after)
  := by
  cases hacc : acc.error with
  | some e =>
      have hcancel := herror (by rw [hacc]; rfl)
      rw [DirectoryOutcome.addFile, hacc, Option.isSome_some, if_pos rfl]
      exact ⟨hfiles, fun _ => hcancel, log, _, .single (.turn (.stopped true))⟩
  | none =>
      have hturns := turns_hold host job.options.cancelled before after
        (addFile host.store.isSome job f) { tracer := acc.tracer, log } w
      rw [hold_addFile] at hturns
      obtain ⟨log', hturns⟩ := hturns
      rw [DirectoryOutcome.addFile_eq host job.options job.parent hacc f, hfiles]
      refine ⟨rfl, fun hsome => ?_, log', _, hturns⟩
      rw [← Bool.not_eq_false]
      intro hcancel
      let fresh : DirectoryOutcome := { files := job.files, tracer := acc.tracer }
      have hfresh : fresh.error = none := rfl
      have hnone := DirectoryOutcome.error_addFile host hcancel job.parent hfresh f w
      exact Option.isSome_iff_ne_none.mp hsome hnone

/-- The files of a directory are compiled by their courses. -/
theorem turns_foldlM (job : DirectoryJob) (loaded : List LoadedFile) {acc : DirectoryOutcome}
    (hfiles : acc.files = job.files) (herror : acc.error.isSome → job.options.cancelled = true)
    (before : List DirectoryOutcome) (log : TraceLog) (w : σ) :
  let r := (loaded.foldlM (DirectoryOutcome.addFile host job.options job.parent) acc).run w
  ∃ (log' : TraceLog) (outcomes : List DirectoryOutcome),
    Turns ({ tracer := acc.tracer, log },
        before.map done ++ loaded.map (addFile host.store.isSome job))
      ({ tracer := r.1.tracer, log := log' }, outcomes.map done)
  := by
  induction loaded generalizing w acc before log with
  | nil =>
      rw [List.map_nil, List.append_nil]
      exact ⟨log, before, .refl⟩
  | cons f loaded ih =>
      obtain ⟨hfiles', herror', log', a, hfirst⟩ := turns_addFile host job hfiles herror f
        (before.map done) (loaded.map (addFile host.store.isSome job)) log w
      obtain ⟨log'', outcomes, hrest⟩ := ih hfiles' herror' (before ++ [a]) log' _
      rw [List.map_append, List.append_assoc] at hrest
      rw [List.foldlM_cons, StateT.run_bind]
      exact ⟨log'', outcomes, hfirst.trans hrest⟩

theorem turns_openDirectory (dir : Text) (count : Nat) (parent : Nat) (s : Scene) (w : σ) :
  let opened := s.tracer.openSpan (traceTime (host.now.run w).1) .driver "compile-dir" parent
  let noted := opened.1.note opened.2 "dir" dir
  let counted := noted.1.note noted.2 "files" (Text.ofNat count)
  ∃ log, Turns (s, [openDirectory dir count parent])
    ({ tracer := counted.1, log }, [done counted.2])
  := by
  have hturns := turns_hold host false [] [] (openDirectory dir count parent) s w
  rw [hold_openDirectory] at hturns
  exact hturns

theorem turns_closeDirectory (span : TraceSpan) (s : Scene) (w : σ) :
  let time := traceTime (host.now.run w).1
  ∃ log, Turns (s, [closeDirectory span])
    ({ tracer := s.tracer.closeSpan time span [], log }, [done ()])
  := by
  have hturns := turns_hold host false [] [] (closeDirectory span) s w
  rw [hold_closeDirectory] at hturns
  exact hturns

/-- The compilation of a directory with files in it is a run of their courses. -/
theorem directoryRun_of_compileDirectory {fs : FileAccess (StateM σ)} {o : CompileOptions}
    {cwd dir : Text} {tracer : Tracer} {w w' : σ} {out : DirectoryOutcome}
    (h : (compileDirectory host fs o cwd dir tracer).run w = (.ok out, w')) :
  out = { files := { baseDir := dir, cwd }, tracer }
    ∨ ∃ files loaded log, DirectoryRun host.store.isSome o files dir loaded 0 { tracer }
      { tracer := out.tracer, log }
  := by
  rw [compileDirectory, StateT.run_bind] at h
  rcases hpaths : (DirectoryOutcome.sourceFiles fs dir).run w with ⟨e | paths, v⟩
  · rw [hpaths] at h
    cases h
  · rw [hpaths] at h
    cases paths with
    | nil =>
        cases h
        exact .inl rfl
    | cons path paths =>
        right
        let now := host.now.run v
        let opened := tracer.openSpan (traceTime now.1) .driver "compile-dir" 0
        let noted := opened.1.note opened.2 "dir" dir
        let counted := noted.1.note noted.2 "files" (Text.ofNat (path :: paths).length)
        let load :=
          (DirectoryOutcome.loadAll fs cwd dir { baseDir := dir, cwd } (path :: paths)).run now.2
        let job : DirectoryJob :=
          { options := o, files := load.1.1
            parent := if counted.2.isLive then counted.2.id else 0 }
        let start : DirectoryOutcome :=
          { files := load.1.1
            tracer := counted.1
            events := load.1.2.map fun f => { file := f.name, status := .queued } }
        let done := (load.1.2.foldlM (DirectoryOutcome.addFile host o job.parent) start).run load.2
        let time := traceTime (host.now.run done.2).1
        have hout : { done.1 with tracer := done.1.tracer.closeSpan time counted.2 [] } = out :=
          Except.ok.inj (congrArg Prod.fst h)
        have hcount : load.1.2.length = (path :: paths).length := by
          have hnames := DirectoryOutcome.names_loadAll fs cwd dir { baseDir := dir, cwd }
            (path :: paths) now.2
          simpa using congrArg List.length hnames
        have hfiles : start.files = job.files := rfl
        have herror : start.error.isSome → job.options.cancelled = true := by simp [start]
        obtain ⟨log₁, hopen⟩ := turns_openDirectory host dir (path :: paths).length 0 { tracer } v
        obtain ⟨log₂, outcomes, hwork⟩ :=
          turns_foldlM host job load.1.2 hfiles herror [] log₁ load.2
        obtain ⟨log₃, hclose⟩ := turns_closeDirectory host counted.2
          { tracer := done.1.tracer, log := log₂ } done.2
        have hopen : Turns ({ tracer }, [openDirectory dir load.1.2.length 0])
            ({ tracer := counted.1, log := log₁ }, [Course.done counted.2]) := by
          rw [hcount]
          exact hopen
        rw [← hout]
        exact ⟨load.1.1, load.1.2, log₃, .intro hopen hwork hclose⟩

end

end Course

end ThreeAddress
