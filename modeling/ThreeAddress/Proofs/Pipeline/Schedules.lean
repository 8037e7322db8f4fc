import Mathlib.Data.List.Forall2
import Mathlib.Logic.Relation
import ThreeAddress.Proofs.Pipeline.Agreement
import ThreeAddress.Proofs.Pipeline.Dialogue

/-!
# Directories compiled by several workers

The files of a directory are compiled by workers that share a store.  A worker takes its place when
fewer than a given number of others are busy, in the order of the files; from then on it asks its
questions whenever it comes to, between any questions of the others.

* Every schedule comes to an end, and at its end all files are compiled.  The files compiled one
  after another are one schedule.
* Whatever the schedule, only what a worker has made is in the store, so every file becomes what it
  becomes alone and without a store.
-/

namespace ThreeAddress

open DirectoryOutcome

/-- What the workers of a directory share. -/
structure DirectoryJob where
  options : CompileOptions := {}
  files : FileSet := {}
  parent : Nat := 0

/-- What a worker does for a file, which begins with the trace as it is then. -/
def DirectoryJob.work (job : DirectoryJob) (tracer : Tracer) (f : LoadedFile) :
    Dialogue DirectoryOutcome :=
  addFile Dialogue.host job.options job.parent { files := job.files, tracer } f

/-- A worker: its file waits for its turn, or is being compiled. -/
inductive Worker where
  | waiting (f : LoadedFile)
  | working (d : Dialogue DirectoryOutcome)

namespace Worker

/-- Whether the worker has not taken its place. -/
def isWaiting : Worker → Bool
  | waiting _ => true
  | working _ => false

/-- Whether the worker has something left to ask. -/
def isBusy : Worker → Bool
  | waiting _ => false
  | working d => !d.isDone

/-- What has come of the file. -/
def outcome? : Worker → Option DirectoryOutcome
  | working (.done a) => some a
  | _ => none

theorem countP_isBusy_of_idle {l : List Worker} (h : ∀ v ∈ l, v.isBusy = false) :
  l.countP (·.isBusy) = 0
  := by
  apply List.countP_eq_zero.mpr
  intro v hv
  rw [h v hv]
  exact Bool.false_ne_true

theorem eq_done_of_outcome {v : Worker} (h : v.outcome?.isSome) :
  ∃ a, v = working (.done a)
  := by
  cases v with
  | waiting f => cases h
  | working d =>
      cases d with
      | done a => exact ⟨a, rfl⟩
      | _ => cases h

end Worker

/-- The workers of a directory, in the order of its files, and what they share. -/
structure Pool (σ : Type) where
  world : σ
  workers : List Worker

namespace Pool

variable {σ : Type}

/-- All files wait for their turn. -/
def start (world : σ) (loaded : List LoadedFile) : Pool σ :=
  { world, workers := loaded.map .waiting }

/-- What has come of the files so far. -/
def outcomes (c : Pool σ) : List DirectoryOutcome := c.workers.filterMap (·.outcome?)

/-- The entries of the files so far, in the order of the files. -/
def entries (c : Pool σ) : List DirectoryEntry := c.outcomes.flatMap (·.entries)

/-- All files have been compiled. -/
def Finished (c : Pool σ) : Prop := ∀ v ∈ c.workers, v.outcome?.isSome

/-- One step of some worker: the first that waits takes its place, if there is one for it, or one
that is busy has a question answered. -/
inductive Step (job : DirectoryJob) (limit : Nat) (clock : StateM σ Int)
    (store : ArtifactStore (StateM σ)) : Pool σ → Pool σ → Prop
  | turn {world : σ} {before after : List Worker} {f : LoadedFile} (tracer : Tracer)
      (hturn : ∀ v ∈ before, v.isWaiting = false)
      (hroom : (before ++ .waiting f :: after).countP (·.isBusy) < limit) :
      Step job limit clock store { world, workers := before ++ .waiting f :: after }
        { world, workers := before ++ .working (job.work tracer f) :: after }
  | answer {world : σ} {before after : List Worker} {d : Dialogue DirectoryOutcome}
      (hbusy : d.isDone = false) :
      Step job limit clock store { world, workers := before ++ .working d :: after }
        { world := ((d.ask clock store).run world).2
          workers := before ++ .working ((d.ask clock store).run world).1 :: after }

end Pool

/-! ### Every schedule comes to an end -/

/-- One dialogue is what is left of another one after an answer. -/
inductive Dialogue.Later {α : Type} : Dialogue α → Dialogue α → Prop
  | now {rest : Int → Dialogue α} (t : Int) : Later (rest t) (now rest)
  | get {key : Digest} {rest : StoreAnswer → Dialogue α} (answer : StoreAnswer) :
      Later (rest answer) (get key rest)
  | put {key : Digest} {a : Artifacts} {rest : Option Text → Dialogue α} (message : Option Text) :
      Later (rest message) (put key a rest)

theorem Dialogue.acc_later {α : Type} (d : Dialogue α) :
  Acc Later d
  := by
  induction d with
  | done a =>
      constructor
      rintro _ ⟨⟩
  | now rest ih =>
      constructor
      rintro _ ⟨t⟩
      exact ih t
  | get key rest ih =>
      constructor
      rintro _ (_ | answer)
      exact ih answer
  | put key a rest ih =>
      constructor
      rintro _ (_ | _ | message)
      exact ih message

theorem Dialogue.later_ask {α σ : Type} {d : Dialogue α} (hbusy : d.isDone = false)
    (clock : StateM σ Int) (store : ArtifactStore (StateM σ)) (w : σ) :
  Later ((d.ask clock store).run w).1 d
  := by
  cases d with
  | done a => cases hbusy
  | now rest => exact .now _
  | get key rest => exact .get _
  | put key a rest => exact .put _

namespace Worker

variable {job : DirectoryJob}

/-- A worker has come further. -/
inductive Later (job : DirectoryJob) : Worker → Worker → Prop
  | turn (tracer : Tracer) (f : LoadedFile) : Later job (working (job.work tracer f)) (waiting f)
  | answer {d d' : Dialogue DirectoryOutcome} (h : d'.Later d) : Later job (working d') (working d)

theorem acc_later (job : DirectoryJob) (v : Worker) :
  Acc (Later job) v
  := by
  have hworking : ∀ d, Acc (Later job) (working d) := by
    intro d
    induction d.acc_later with
    | intro d _ ih =>
        constructor
        rintro _ (_ | h)
        exact ih _ h
  cases v with
  | working d => exact hworking d
  | waiting f =>
      constructor
      rintro _ ⟨tracer⟩
      apply hworking

/-- One of several workers has come further. -/
def OneLater (job : DirectoryJob) (l' l : List Worker) : Prop :=
  ∃ before v v' after, l = before ++ v :: after ∧ l' = before ++ v' :: after ∧ Later job v' v

theorem acc_oneLater_cons {v : Worker} (hv : Acc (Later job) v) {l : List Worker}
    (hl : Acc (OneLater job) l) :
  Acc (OneLater job) (v :: l)
  := by
  induction hv generalizing l with
  | intro v _ ihv =>
      induction hl with
      | intro l hl ihl =>
          constructor
          rintro _ ⟨before, x, x', after, heq, rfl, hlater⟩
          cases before with
          | nil =>
              cases heq
              exact ihv x' hlater ⟨_, hl⟩
          | cons y before =>
              cases heq
              exact ihl _ ⟨before, x, x', after, rfl, rfl, hlater⟩

theorem wellFounded_oneLater (job : DirectoryJob) :
  WellFounded (OneLater job)
  := by
  constructor
  intro l
  induction l with
  | nil =>
      constructor
      rintro _ ⟨before, v, v', after, heq, -⟩
      cases before with
      | nil => cases heq
      | cons y before => cases heq
  | cons v l ih => exact acc_oneLater_cons (acc_later job v) ih

end Worker

namespace Pool

variable {σ : Type} {job : DirectoryJob} {limit : Nat} {clock : StateM σ Int}
  {store : ArtifactStore (StateM σ)} {c d : Pool σ}

theorem Step.oneLater (h : Step job limit clock store c d) :
  Worker.OneLater job d.workers c.workers
  := by
  cases h with
  | turn tracer hturn hroom => exact ⟨_, _, _, _, rfl, rfl, .turn tracer _⟩
  | answer hbusy => exact ⟨_, _, _, _, rfl, rfl, .answer (Dialogue.later_ask hbusy _ _ _)⟩

/-- No schedule goes on forever. -/
theorem wellFounded_step (job : DirectoryJob) (limit : Nat) (clock : StateM σ Int)
    (store : ArtifactStore (StateM σ)) :
  WellFounded fun d c : Pool σ => Step job limit clock store c d
  := by
  have hworkers := InvImage.wf (workers (σ := σ)) (Worker.wellFounded_oneLater job)
  exact Subrelation.wf (fun h => Step.oneLater h) hworkers

/-- As long as not all files are compiled, some worker can take a step. -/
theorem finished_of_stuck (hlimit : 0 < limit) (hstuck : ∀ d, ¬ Step job limit clock store c d) :
  c.Finished
  := by
  obtain ⟨world, workers⟩ := c
  have hidle : ∀ v ∈ workers, v.isBusy = false := by
    intro v hv
    obtain ⟨before, after, rfl⟩ := List.append_of_mem hv
    cases v with
    | waiting f => rfl
    | working d =>
        rw [← Bool.not_eq_true]
        intro hbusy
        have hleft : d.isDone = false := by simpa [Worker.isBusy] using hbusy
        exact hstuck _ (.answer hleft)
  have hplaced : ∀ v ∈ workers, v.isWaiting = false := by
    intro v hv
    rw [← Bool.not_eq_true]
    intro hwaiting
    obtain ⟨x, hx⟩ := Option.isSome_iff_exists.mp (List.find?_isSome.mpr ⟨v, hv, hwaiting⟩)
    obtain ⟨hfirst, before, after, rfl, hbefore⟩ := List.find?_eq_some_iff_append.mp hx
    cases x with
    | working d => cases hfirst
    | waiting f =>
        have hturn : ∀ y ∈ before, y.isWaiting = false := by
          intro y hy
          simpa using hbefore y hy
        exact hstuck _ (.turn {} hturn ((Worker.countP_isBusy_of_idle hidle).trans_lt hlimit))
  intro v hv
  have hbusy := hidle v hv
  have hwaiting := hplaced v hv
  cases v with
  | waiting f => cases hwaiting
  | working d =>
      cases d with
      | done a => rfl
      | _ => cases hbusy

end Pool

/-! ### One file after another -/

namespace DirectoryOutcome

/-- Compiling the next file only adds to what has come of those before. -/
theorem addFile_eq {m : Type → Type} [Monad m] [LawfulMonad m] (host : CompileHost m)
    (o : CompileOptions) (parent : Nat) {acc : DirectoryOutcome} (hacc : acc.error = none)
    (f : LoadedFile) :
  addFile host o parent acc f = do
    let a ← addFile host o parent { files := acc.files, tracer := acc.tracer } f
    return { acc with
      entries := acc.entries ++ a.entries
      events := acc.events ++ a.events
      tracer := a.tracer
      error := a.error }
  := by
  simp only [addFile, hacc, Option.isSome_none, Bool.false_eq_true, if_false]
  split
  · simp only [pure_bind, List.append_nil]
  · split
    · simp only [pure_bind, List.nil_append]
    · simp only [bind_assoc, pure_bind, List.nil_append]

/-- Unless the compilation is cancelled, it goes on to the next file. -/
theorem error_addFile {σ : Type} (host : CompileHost (StateM σ)) {o : CompileOptions}
    (hcancel : o.cancelled = false) (parent : Nat) {acc : DirectoryOutcome} (hacc : acc.error = none)
    (f : LoadedFile) (w : σ) :
  ((addFile host o parent acc f).run w).1.error = none
  := by
  rw [addFile, hacc, if_neg (by simp), if_neg (by simp [hcancel])]
  split
  · rfl
  · next file hfile =>
    rw [StateT.run_bind]
    apply error_compile host
    exact hcancel

/-- The files of a directory are listed, loaded, and compiled one after another. -/
theorem exists_foldlM_of_compileDirectory {σ : Type} {host : CompileHost (StateM σ)}
    {fs : FileAccess (StateM σ)} {o : CompileOptions} {cwd dir : Text} {tracer : Tracer} {w w' : σ}
    {out : DirectoryOutcome}
    (h : (compileDirectory host fs o cwd dir tracer).run w = (.ok out, w')) :
  ∃ paths files loaded parent acc v v' v'',
    (sourceFiles fs dir).run w = (.ok paths, v)
      ∧ (loadAll fs cwd dir { baseDir := dir, cwd } paths).run v' = ((files, loaded), v'')
      ∧ acc.error = none ∧ acc.files = files ∧ acc.entries = []
      ∧ out.entries = ((loaded.foldlM (addFile host o parent) acc).run v'').1.entries
  := by
  rw [compileDirectory, StateT.run_bind] at h
  rcases hpaths : (sourceFiles fs dir).run w with ⟨e | paths, v⟩
  · rw [hpaths] at h
    cases h
  · rw [hpaths] at h
    cases paths with
    | nil =>
        cases h
        exact ⟨[], _, [], 0, { files := { baseDir := dir, cwd } }, v, v, v, rfl, rfl, rfl, rfl, rfl,
          rfl⟩
    | cons path paths =>
        let now := host.now.run v
        let opened := tracer.openSpan (Pipeline.traceTime now.1) .driver "compile-dir" 0
        let noted := opened.1.note opened.2 "dir" dir
        let counted := noted.1.note noted.2 "files" (Text.ofNat (path :: paths).length)
        let load := (loadAll fs cwd dir { baseDir := dir, cwd } (path :: paths)).run now.2
        let parent := if counted.2.isLive then counted.2.id else 0
        let acc : DirectoryOutcome :=
          { files := load.1.1
            tracer := counted.1
            events := load.1.2.map fun f => { file := f.name, status := .queued } }
        let done := (load.1.2.foldlM (addFile host o parent) acc).run load.2
        let time := Pipeline.traceTime (host.now.run done.2).1
        have hout : { done.1 with tracer := done.1.tracer.closeSpan time counted.2 [] } = out :=
          Except.ok.inj (congrArg Prod.fst h)
        exact ⟨path :: paths, load.1.1, load.1.2, parent, acc, v, now.2, load.2, rfl, rfl, rfl, rfl,
          rfl, by rw [← hout]⟩

end DirectoryOutcome

namespace Pool

variable {σ : Type} {job : DirectoryJob} {limit : Nat} {clock : StateM σ Int}
  {store : ArtifactStore (StateM σ)}

/-- A worker can ask all its questions without a break. -/
theorem reaches_hold (before after : List Worker) (d : Dialogue DirectoryOutcome) (w : σ) :
  Relation.ReflTransGen (Step job limit clock store)
    { world := w, workers := before ++ .working d :: after }
    { world := ((d.hold clock store).run w).2
      workers := before ++ .working (.done ((d.hold clock store).run w).1) :: after }
  := by
  induction d generalizing w with
  | done a => exact .refl
  | now rest ih => exact .head (.answer rfl) (ih _ _)
  | get key rest ih => exact .head (.answer rfl) (ih _ _)
  | put key a rest ih => exact .head (.answer rfl) (ih _ _)

/-- The next file can be compiled as soon as those before it are. -/
theorem reaches_addFile (hlimit : 0 < limit) {before : List Worker}
    (hbefore : ∀ v ∈ before, v.outcome?.isSome) (tracer : Tracer) (f : LoadedFile)
    (later : List LoadedFile) (w : σ) :
  let r := (addFile { now := clock, store := some store } job.options job.parent
    { files := job.files, tracer } f).run w
  Relation.ReflTransGen (Step job limit clock store)
    { world := w, workers := before ++ .waiting f :: later.map .waiting }
    { world := r.2, workers := before ++ .working (.done r.1) :: later.map .waiting }
  := by
  have hturn : ∀ v ∈ before, v.isWaiting = false := by
    intro v hv
    obtain ⟨a, rfl⟩ := Worker.eq_done_of_outcome (hbefore v hv)
    rfl
  have hidle : ∀ v ∈ before ++ .waiting f :: later.map .waiting, v.isBusy = false := by
    intro v hv
    obtain hv | hv := List.mem_append.mp hv
    · obtain ⟨a, rfl⟩ := Worker.eq_done_of_outcome (hbefore v hv)
      rfl
    · obtain rfl | hv := List.mem_cons.mp hv
      · rfl
      · obtain ⟨g, -, rfl⟩ := List.mem_map.mp hv
        rfl
  have hroom := (Worker.countP_isBusy_of_idle hidle).trans_lt hlimit
  rw [← Dialogue.hold_addFile]
  exact .head (.turn tracer hturn hroom) (reaches_hold before _ (job.work tracer f) w)

/-- To compile the files one after another is one schedule. -/
theorem reaches_foldlM (hlimit : 0 < limit) (hcancel : job.options.cancelled = false)
    (loaded : List LoadedFile) {w : σ} {before : List Worker}
    (hbefore : ∀ v ∈ before, v.outcome?.isSome) {acc : DirectoryOutcome}
    (herror : acc.error = none) (hfiles : acc.files = job.files)
    (hentries : (before.filterMap (·.outcome?)).flatMap (·.entries) = acc.entries) :
  let r := (loaded.foldlM
    (addFile { now := clock, store := some store } job.options job.parent) acc).run w
  ∃ c, Relation.ReflTransGen (Step job limit clock store)
      { world := w, workers := before ++ loaded.map .waiting } c
    ∧ c.Finished ∧ c.world = r.2 ∧ c.entries = r.1.entries
  := by
  induction loaded generalizing w before acc with
  | nil =>
      rw [List.map_nil, List.append_nil]
      exact ⟨_, .refl, hbefore, rfl, hentries⟩
  | cons f loaded ih =>
      let host : CompileHost (StateM σ) := { now := clock, store := some store }
      let fresh : DirectoryOutcome := { files := job.files, tracer := acc.tracer }
      let r := (addFile host job.options job.parent fresh f).run w
      let acc' : DirectoryOutcome :=
        { files := job.files
          entries := acc.entries ++ r.1.entries
          events := acc.events ++ r.1.events
          tracer := r.1.tracer
          error := r.1.error }
      have hadd : (addFile host job.options job.parent acc f).run w = (acc', r.2) := by
        rw [addFile_eq host job.options job.parent herror f, hfiles]
        rfl
      have hreaches : Relation.ReflTransGen (Step job limit clock store) _ _ :=
        reaches_addFile hlimit hbefore acc.tracer f loaded w
      have hdone : ∀ v ∈ before ++ [.working (.done r.1)], v.outcome?.isSome := by
        intro v hv
        obtain hv | hv := List.mem_append.mp hv
        · exact hbefore v hv
        · rw [List.mem_singleton.mp hv]
          rfl
      have hadded : ((before ++ [Worker.working (.done r.1)]).filterMap (·.outcome?)).flatMap
          (·.entries) = acc'.entries := by
        rw [List.filterMap_append, List.flatMap_append, hentries]
        exact congrArg _ (List.append_nil _)
      obtain ⟨c, hc, hrest⟩ := @ih r.2 _ hdone acc'
        (error_addFile host hcancel job.parent rfl f w) rfl hadded
      rw [List.append_assoc] at hc
      refine ⟨c, hreaches.trans hc, ?_⟩
      rw [List.foldlM_cons, StateT.run_bind, hadd]
      exact hrest

/-- What comes of a directory comes of a schedule of its files. -/
theorem exists_schedule_of_compileDirectory (hlimit : 0 < limit) {o : CompileOptions}
    (hcancel : o.cancelled = false) {fs : FileAccess (StateM σ)} {cwd dir : Text} {tracer : Tracer}
    {w w' : σ} {out : DirectoryOutcome}
    (h : (compileDirectory { now := clock, store := some store } fs o cwd dir tracer).run w
      = (.ok out, w')) :
  ∃ paths files loaded parent v v' v'' c,
    (sourceFiles fs dir).run w = (.ok paths, v)
      ∧ (loadAll fs cwd dir { baseDir := dir, cwd } paths).run v' = ((files, loaded), v'')
      ∧ Relation.ReflTransGen (Step { options := o, files, parent } limit clock store)
        (start v'' loaded) c
      ∧ c.Finished ∧ c.entries = out.entries
  := by
  obtain ⟨paths, files, loaded, parent, acc, v, v', v'', hpaths, hload, herror, hfiles, hnone, hout⟩ :=
    exists_foldlM_of_compileDirectory h
  let job : DirectoryJob := { options := o, files, parent }
  have hbefore : ∀ x ∈ ([] : List Worker), x.outcome?.isSome := by simp
  obtain ⟨c, hreaches, hfinished, -, hentries⟩ := @reaches_foldlM σ job limit clock store hlimit
    hcancel loaded v'' [] hbefore acc herror hfiles hnone.symm
  exact ⟨paths, files, loaded, parent, v, v', v'', c, hpaths, hload, hreaches, hfinished,
    hentries.trans hout.symm⟩

end Pool

/-! ### What schedules keep -/

/-- The worker is there for the file and keeps its promise. -/
def Worker.Serves (good : Digest → Artifacts → Prop) (post : LoadedFile → DirectoryOutcome → Prop)
    (f : LoadedFile) : Worker → Prop
  | waiting f' => f' = f
  | working d => d.Honours good (post f)

/-- One of several things that stand beside others may be replaced. -/
theorem exists_replace_of_forall₂ {α β : Type} {R : α → β → Prop} {l : List α}
    {before after : List β} {x : β} (h : List.Forall₂ R l (before ++ x :: after)) :
  ∃ a ∈ l, R a x ∧ ∀ y, R a y → List.Forall₂ R l (before ++ y :: after)
  := by
  induction before generalizing l with
  | nil =>
      cases h with
      | @cons a _ l _ ha hl => exact ⟨a, List.mem_cons_self, ha, fun y hy => .cons hy hl⟩
  | cons b before ih =>
      cases h with
      | @cons a _ l _ ha hl =>
          obtain ⟨a', ha', hx, hreplace⟩ := ih hl
          exact ⟨a', List.mem_cons_of_mem a ha', hx, fun y hy => .cons ha (hreplace y hy)⟩

namespace Pool

variable {σ : Type} {job : DirectoryJob} {limit : Nat} {clock : StateM σ Int}
  {store : ArtifactStore (StateM σ)} {kept : σ → Prop} {good : Digest → Artifacts → Prop}
  {post : LoadedFile → DirectoryOutcome → Prop} {loaded : List LoadedFile} {c d : Pool σ}

/-- What the workers share is kept, and there is a worker for each file. -/
structure Sound (kept : σ → Prop) (good : Digest → Artifacts → Prop)
    (post : LoadedFile → DirectoryOutcome → Prop) (loaded : List LoadedFile) (c : Pool σ) :
    Prop where
  world : kept c.world
  workers : List.Forall₂ (Worker.Serves good post) loaded c.workers

theorem sound_start {w : σ} (hw : kept w) (loaded : List LoadedFile) :
  Sound kept good post loaded (start w loaded)
  := by
  refine ⟨hw, ?_⟩
  rw [start, List.forall₂_map_right_iff, List.forall₂_same]
  intro f _
  rfl

/-- A step of one worker keeps what the workers share, and the promises of all. -/
theorem Sound.step
    (hk : CompileHost.Keeps { now := clock, store := some store } kept good)
    (hwork : ∀ f ∈ loaded, ∀ tracer, (job.work tracer f).Honours good (post f))
    (h : Sound kept good post loaded c) (hstep : Step job limit clock store c d) :
  Sound kept good post loaded d
  := by
  obtain ⟨hworld, hworkers⟩ := h
  cases hstep with
  | turn tracer hturn hroom =>
      obtain ⟨f', hf, hserves, hreplace⟩ := exists_replace_of_forall₂ hworkers
      cases hserves
      exact ⟨hworld, hreplace _ (hwork _ hf tracer)⟩
  | answer hbusy =>
      obtain ⟨f, -, hserves, hreplace⟩ := exists_replace_of_forall₂ hworkers
      obtain ⟨hkept, hleft⟩ := Dialogue.Honours.ask hk hserves hworld
      exact ⟨hkept, hreplace _ hleft⟩

/-- So does a schedule. -/
theorem Sound.reaches
    (hk : CompileHost.Keeps { now := clock, store := some store } kept good)
    (hwork : ∀ f ∈ loaded, ∀ tracer, (job.work tracer f).Honours good (post f))
    (h : Sound kept good post loaded c)
    (hreaches : Relation.ReflTransGen (Step job limit clock store) c d) :
  Sound kept good post loaded d
  := by
  induction hreaches with
  | refl => exact h
  | tail _ hstep ih => exact ih.step hk hwork hstep

/-- At the end every worker has done what it promised. -/
theorem Sound.outcomes (h : Sound kept good post loaded c) (hfinished : c.Finished) :
  List.Forall₂ post loaded c.outcomes
  := by
  obtain ⟨world, workers⟩ := c
  have hworkers := h.workers
  rw [Pool.outcomes]
  dsimp only [Finished] at hworkers hfinished ⊢
  induction hworkers with
  | nil => exact .nil
  | @cons f v loaded workers hserves hrest ih =>
      obtain ⟨hv, hlater⟩ := List.forall_mem_cons.mp hfinished
      obtain ⟨a, rfl⟩ := Worker.eq_done_of_outcome hv
      exact .cons hserves (ih ⟨h.world, hrest⟩ hlater)

end Pool

/-! ### What becomes of the files -/

/-- The request for a file of a directory. -/
def DirectoryJob.request (job : DirectoryJob) (name : Text) (file : File) : Request :=
  { options := { job.options with displayName := name }, files := job.files, file }

/-- The requests for the files that could be read. -/
def DirectoryJob.requests (job : DirectoryJob) (loaded : List LoadedFile) : List Request :=
  loaded.filterMap fun f => f.file.toOption.map (job.request f.name)

/-- What a worker promises: the entry of its file tells what a request tells that shares a store. -/
def DirectoryJob.Promise (job : DirectoryJob) (rs : List Request) (f : LoadedFile)
    (a : DirectoryOutcome) : Prop :=
  ∃ file c, f.file = .ok file ∧ job.request f.name file ∈ rs
    ∧ (job.request f.name file).Told rs c ∧ a.error = c.error
    ∧ a.entries = [{ name := f.name, result := some c.result, bag := c.result.bag }]

theorem DirectoryJob.request_mem {job : DirectoryJob} {loaded : List LoadedFile} {f : LoadedFile}
    {file : File} (hf : f ∈ loaded) (hfile : f.file = .ok file) :
  job.request f.name file ∈ job.requests loaded
  := by
  apply List.mem_filterMap.mpr
  use f, hf
  rw [hfile]
  rfl

/-- A worker keeps its promise. -/
theorem DirectoryJob.honours_work {job : DirectoryJob} {rs : List Request} {f : LoadedFile}
    {file : File} (hfile : f.file = .ok file) (hr : job.request f.name file ∈ rs)
    (hcancel : job.options.cancelled = false) (tracer : Tracer) :
  (job.work tracer f).Honours (Request.Stored rs) (job.Promise rs f)
  := by
  rw [work, addFile, if_neg (by simp), if_neg (by simp [hcancel]), hfile]
  apply Dialogue.Honours.bind
    (Dialogue.honours_compile (fun q hq hreached => Request.stored_made hr hq hreached) tracer _)
  intro c hc
  exact ⟨file, c, hfile, hr, hc, rfl, rfl⟩

/-- The entry tells of a file what a compilation tells. -/
structure DirectoryEntry.Matches (timings : Bool) (e : DirectoryEntry) (r : CompileResult) :
    Prop where
  result : ∃ r', e.result = some r' ∧ e.bag = r'.bag ∧ r'.Matches timings r
  output : e.output = r.output

/-- All files are compiled up to the same stage. -/
theorem DirectoryJob.wants_of_mem_requests {job : DirectoryJob} {loaded : List LoadedFile}
    {r : Request} (hr : r ∈ job.requests loaded) :
  Pipeline.wants r.options .cpu = Pipeline.wants job.options .cpu
  := by
  obtain ⟨f, -, hf⟩ := List.mem_filterMap.mp hr
  obtain ⟨file, -, rfl⟩ := Option.map_eq_some_iff.mp hf
  rfl

/-- A worker that has kept its promise tells of its file what a compilation without a store
tells. -/
theorem DirectoryJob.Promise.matches {ρ : Type} {job : DirectoryJob} {loaded : List LoadedFile}
    {f : LoadedFile} {a : DirectoryOutcome} {bare : CompileHost (StateM ρ)}
    (h : job.Promise (job.requests loaded) f a)
    (hapart : ∀ q ∈ job.requests loaded, ∀ r ∈ job.requests loaded, q.Apart r)
    (hbare : bare.store = none) (hcancel : job.options.cancelled = false) :
  a.error = none ∧ ∃ e, a.entries = [e] ∧ e.name = f.name ∧ ∃ file, f.file = .ok file
    ∧ ∀ tracer parent u, e.Matches job.options.timings
      ((compile bare { job.options with displayName := f.name } job.files file tracer
        parent).run u).1.result
  := by
  obtain ⟨file, c, hfile, hr, htold, herror, hentries⟩ := h
  have hmatches : ∀ tracer parent u, c.result.Matches job.options.timings
      ((compile bare { job.options with displayName := f.name } job.files file tracer
        parent).run u).1.result := by
    intro tracer parent u
    apply htold.matches (tells_without_store hbare ..).1 (fun q hq => hapart q hq _ hr) ?_ hcancel
    intro q hq
    rw [wants_of_mem_requests hq, wants_of_mem_requests hr]
  refine ⟨herror.trans (htold.error hcancel), _, hentries, rfl, file, hfile, ?_⟩
  intro tracer parent u
  exact ⟨⟨_, rfl, rfl, hmatches tracer parent u⟩, (hmatches tracer parent u).output⟩

theorem forall₂_entries {R : LoadedFile → DirectoryEntry → Prop} {loaded : List LoadedFile}
    {outcomes : List DirectoryOutcome}
    (h : List.Forall₂ (fun f a => ∃ e, a.entries = [e] ∧ R f e) loaded outcomes) :
  List.Forall₂ R loaded (outcomes.flatMap (·.entries))
  := by
  induction h with
  | nil => exact .nil
  | cons hfirst _ ih =>
      obtain ⟨e, hentries, he⟩ := hfirst
      rw [List.flatMap_cons, hentries]
      exact .cons he ih

/-- Files are loaded in their order. -/
theorem DirectoryOutcome.names_loadAll {υ : Type} (fs : FileAccess (StateM υ)) (cwd dir : Text)
    (files : FileSet) (paths : List Text) (v : υ) :
  ((loadAll fs cwd dir files paths).run v).1.2.map (·.name) = paths.map (Path.displayed cwd dir)
  := by
  induction paths generalizing files v with
  | nil => rfl
  | cons path paths ih =>
      simp only [loadAll, StateT.run_bind]
      rcases (files.load fs path).run v with ⟨e | ⟨files', id⟩, v'⟩
      · exact congrArg _ (ih files v')
      · exact congrArg _ (ih files' v')

section

variable {τ : Type}

/-- The store of a directory, in a tree of files beside a clock. -/
def FileStore.shared (s : FileStore) : ArtifactStore (StateM (FileTree × τ)) where
  get := fun key => FileTree.besides (s.get FileTree.access key)
  put := fun key a => FileTree.besides (s.put FileTree.access key a)

end

/-- Directories do not depend on schedules.  Any files are loaded in the order in which they were
found, and compiled by workers that share a store, empty at first.  Every schedule of the workers
ends.  When none of them can go on, there is an entry for each file, in the same order, which tells
what a compilation of that file alone tells that has no store. -/
theorem directory_independent_of_schedule {τ υ ρ : Type}
    -- the store and the clock that the workers share
    (s : FileStore) (clock : StateM τ Int) (w : FileTree × τ)
    -- the files that were found and loaded
    (fs : FileAccess (StateM υ)) (v v' : υ) (cwd dir : Text) (paths : List Text)
    (loaded : List LoadedFile)
    (job : DirectoryJob) (limit : Nat) (bare : CompileHost (StateM ρ))
    (hload : (loadAll fs cwd dir { baseDir := dir, cwd } paths).run v = ((job.files, loaded), v'))
    (hfiles : ∀ f ∈ loaded, ∃ file, f.file = .ok file)
    (hempty : s.Empty w.1)
    (hround : ∀ r ∈ job.requests loaded, ∀ a, r.Makes a → a.RoundTrips)
    (hapart : ∀ q ∈ job.requests loaded, ∀ r ∈ job.requests loaded, q.Apart r)
    (hbare : bare.store = none) (hlimit : 0 < limit)
    (hcancel : job.options.cancelled = false) :
  let step := Pool.Step job limit (s.host clock).now s.shared
  WellFounded (fun d c => step c d) ∧
    ∀ c, Relation.ReflTransGen step (.start w loaded) c → (∀ d, ¬ step c d) →
      c.entries.map (·.name) = paths.map (Path.displayed cwd dir)
        ∧ (∀ a ∈ c.outcomes, a.error = none)
        ∧ List.Forall₂ (fun f e => ∃ file, f.file = .ok file ∧ ∀ tracer parent u,
            e.Matches job.options.timings
              ((compile bare { job.options with displayName := f.name } job.files file tracer
                parent).run u).1.result)
          loaded c.entries
  := by
  intro step
  refine ⟨Pool.wellFounded_step .., ?_⟩
  intro c hreaches hstuck
  let rs := job.requests loaded
  let kept := fun w' : FileTree × τ => s.Holds w.1.cwd (Request.Stored rs) w'.1
  have hkeeps : CompileHost.Keeps { now := (s.host clock).now, store := some s.shared } kept
      (Request.Stored rs) := s.keeps_host clock w.1.cwd hround
  have hwork : ∀ f ∈ loaded, ∀ tracer,
      (job.work tracer f).Honours (Request.Stored rs) (job.Promise rs f) := by
    intro f hf tracer
    obtain ⟨file, hfile⟩ := hfiles f hf
    exact DirectoryJob.honours_work hfile (DirectoryJob.request_mem hf hfile) hcancel tracer
  have hkept : kept w := hempty.holds _
  have hstart : Pool.Sound kept (Request.Stored rs) (job.Promise rs) loaded (.start w loaded) :=
    Pool.sound_start hkept loaded
  have hpromises := (hstart.reaches hkeeps hwork hreaches).outcomes
    (Pool.finished_of_stuck hlimit hstuck)
  have hmatches := hpromises.imp fun f a h => h.matches hapart hbare hcancel
  have hentries := forall₂_entries (hmatches.imp fun f a h => h.2)
  have herrors : List.Forall₂ (fun a f => a.error = none ∧ True) c.outcomes loaded :=
    hmatches.flip.imp fun a f h => ⟨h.1, trivial⟩
  refine ⟨?_, ((List.forall₂_and_left ..).mp herrors).1, hentries.imp fun f e h => h.2⟩
  have hnames : List.Forall₂ Eq (c.entries.map (·.name)) (loaded.map (·.name)) := by
    rw [List.forall₂_map_left_iff, List.forall₂_map_right_iff]
    exact hentries.flip.imp fun e f h => h.1
  have hloaded := names_loadAll fs cwd dir { baseDir := dir, cwd } paths v
  rw [hload] at hloaded
  rw [List.forall₂_eq_eq_eq] at hnames
  exact hnames.trans hloaded

/-! ### Two files with the same content -/

/-- A directory with two files, each with the content of `undeclaredSum`; it cannot be changed. -/
def twins : FileAccess (StateM Unit) where
  kind _ := return .ok .file
  ownKind _ := return .ok .file
  read _ := return .ok undeclaredSum.content
  list _ := return .ok [("a.tac", .file), ("b.tac", .file)]
  write _ _ := return .error (.other "read-only file system")
  touch _ := return .error (.other "read-only file system")
  replace _ _ := return .error (.other "read-only file system")
  makeDir _ := return .error (.other "read-only file system")
  removeAll _ := return .error (.other "read-only file system")

/-- The twins, loaded. -/
def loadedTwins : FileSet × List LoadedFile :=
  ((loadAll twins "/" "/d" { baseDir := "/d", cwd := "/" } ["/d/a.tac", "/d/b.tac"]).run ()).1

/-- One register for each of the twins. -/
def twinJob : DirectoryJob where
  options := { registers := { count := 1 }, maxDiagnostics := 2 }
  files := loadedTwins.1

/-- The request for the first or the second twin. -/
def requestTwin (id : FileId) (path : Text) : Request :=
  twinJob.request (Path.displayed "/" "/d" path) { undeclaredSum with id, path }

theorem requests_twins :
  twinJob.requests loadedTwins.2 = [requestTwin 0 "/d/a.tac", requestTwin 1 "/d/b.tac"]
  := rfl

theorem twins_independent_of_schedule :
  let s : FileStore := { dir := "/store" }
  let clock : StateM Int Int := fun now => (now, now + 1)
  let step := Pool.Step twinJob 2 (s.host clock).now s.shared
  WellFounded (fun d c => step c d) ∧
    ∀ c, Relation.ReflTransGen step (.start ({}, 0) loadedTwins.2) c → (∀ d, ¬ step c d) →
      c.entries.map (·.name) = ["a.tac", "b.tac"]
        ∧ (∀ a ∈ c.outcomes, a.error = none)
        ∧ List.Forall₂ (fun f e => ∃ file, f.file = .ok file ∧ ∀ tracer parent u,
            e.Matches twinJob.options.timings
              ((compile stillHost { twinJob.options with displayName := f.name } twinJob.files file
                tracer parent).run u).1.result)
          loadedTwins.2 c.entries
  := by
  intro s clock
  have hnames : ["/d/a.tac", "/d/b.tac"].map (Path.displayed "/" "/d") = ["a.tac", "b.tac"] := by
    decide +kernel
  rw [← hnames]
  apply directory_independent_of_schedule s clock ({}, 0) twins () () "/" "/d"
    ["/d/a.tac", "/d/b.tac"] loadedTwins.2 twinJob 2 stillHost
  · rfl
  · intro f hf
    obtain rfl | hf := List.mem_cons.mp hf
    · exact ⟨_, rfl⟩
    · obtain rfl := List.mem_singleton.mp hf
      exact ⟨_, rfl⟩
  · exact s.empty_of_nil _
  · rw [requests_twins, List.forall_mem_cons, List.forall_mem_singleton]
    constructor
    · intro a ha
      rw [artifacts_of_undeclaredSum ha rfl rfl]
      decide +kernel
    · intro a ha
      rw [artifacts_of_undeclaredSum ha rfl rfl]
      decide +kernel
  · rw [requests_twins]
    intro q hq r hr
    simp only [List.mem_cons, List.not_mem_nil, or_false] at hq hr
    obtain rfl | rfl := hq
    all_goals obtain rfl | rfl := hr
    all_goals exact ⟨fun _ => rfl, fun _ => rfl⟩
  · rfl
  · decide
  · rfl

end ThreeAddress
