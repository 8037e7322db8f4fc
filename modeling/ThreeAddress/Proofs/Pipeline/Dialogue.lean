import ThreeAddress.Pipeline.Directory
import ThreeAddress.Proofs.Pipeline.Advance

/-!
# Compilations as dialogues

A compilation reads the clock of its host, looks into its store and puts something there; between
two such questions it goes on alone.  As a dialogue it is nothing but its questions, with the rest
of it for every answer, so that something else may happen before each of them.

* A compilation in a host is the dialogue held with that host.
* `Honours` says what a dialogue does and what comes of it in every world where only good artifacts
  are found.  A compilation puts only what it has made itself into a store, and tells what its
  stages make or what was found.
-/

namespace ThreeAddress

/-- A computation, as far as a host can see it. -/
inductive Dialogue (α : Type) where
  | done (a : α)
  | now (rest : Int → Dialogue α)
  | get (key : Digest) (rest : StoreAnswer → Dialogue α)
  | put (key : Digest) (a : Artifacts) (rest : Option Text → Dialogue α)

namespace Dialogue

variable {α β : Type}

/-- One dialogue after another. -/
def bind : Dialogue α → (α → Dialogue β) → Dialogue β
  | done a, f => f a
  | now rest, f => now fun t => (rest t).bind f
  | get key rest, f => get key fun answer => (rest answer).bind f
  | put key a rest, f => put key a fun message => (rest message).bind f

instance : Monad Dialogue where
  pure := done
  bind := bind

/-- The host that hands every question on. -/
def host : CompileHost Dialogue where
  now := now done
  store := some { get := fun key => get key done, put := fun key a => put key a done }

/-- Whether no question is left. -/
def isDone : Dialogue α → Bool
  | done _ => true
  | _ => false

/-! ### Dialogues with a host -/

section

variable {m : Type → Type} [Monad m] (clock : m Int) (store : ArtifactStore m)

/-- Answers one question. -/
def ask : Dialogue α → m (Dialogue α)
  | done a => return done a
  | now rest => do return rest (← clock)
  | get key rest => do return rest (← store.get key)
  | put key a rest => do return rest (← store.put key a)

/-- Answers all questions. -/
def hold : Dialogue α → m α
  | done a => return a
  | now rest => do hold (rest (← clock))
  | get key rest => do hold (rest (← store.get key))
  | put key a rest => do hold (rest (← store.put key a))

open Pipeline

theorem hold_runStage (o : CompileOptions) (stage : Stage) (f : Body) (p : Pipeline) :
  (runStage host o stage f p).hold clock store
    = runStage { now := clock, store := some store } o stage f p
  := by
  rw [runStage, runStage]
  split
  · rfl
  · rfl

theorem hold_restore (o : CompileOptions) (p : Pipeline) :
  (p.restore host o).hold clock store = p.restore { now := clock, store := some store } o
  := by
  rw [restore, restore]
  change Dialogue.hold clock store (if _ then _ else _) = if _ then _ else _
  split
  · rfl
  · apply bind_congr
    intro began
    apply bind_congr
    intro answer
    apply bind_congr
    intro ended
    cases answer with
    | missing => rfl
    | unreadable message => rfl
    | found a =>
        dsimp only
        split
        · rfl
        · rfl

theorem hold_save (o : CompileOptions) (p : Pipeline) :
  (p.save host o).hold clock store = p.save { now := clock, store := some store } o
  := by
  rw [save, save]
  change Dialogue.hold clock store (if _ then _ else _) = if _ then _ else _
  split
  · rfl
  · apply bind_congr
    intro message
    cases message with
    | none => rfl
    | some message => rfl

variable [LawfulMonad m]

theorem hold_bind (x : Dialogue α) (f : α → Dialogue β) :
  (x >>= f).hold clock store = x.hold clock store >>= fun a => (f a).hold clock store
  := by
  induction x with
  | done a => exact (pure_bind a fun a => (f a).hold clock store).symm
  | now rest ih =>
      change (clock >>= fun t => (rest t >>= f).hold clock store) = (clock >>= _) >>= _
      rw [bind_assoc]
      exact bind_congr ih
  | get key rest ih =>
      change (store.get key >>= fun answer => (rest answer >>= f).hold clock store)
        = (store.get key >>= _) >>= _
      rw [bind_assoc]
      exact bind_congr ih
  | put key a rest ih =>
      change (store.put key a >>= fun message => (rest message >>= f).hold clock store)
        = (store.put key a >>= _) >>= _
      rw [bind_assoc]
      exact bind_congr ih

theorem hold_runStages (o : CompileOptions) (fs : List (Stage × Body)) (p : Pipeline) :
  (runStages host o fs p).hold clock store
    = runStages { now := clock, store := some store } o fs p
  := by
  induction fs generalizing p with
  | nil => rfl
  | cons x fs ih =>
      obtain ⟨stage, f⟩ := x
      rw [runStages, runStages]
      split
      · rw [hold_bind, hold_runStage]
        apply bind_congr
        rintro ⟨p, _ | stop⟩
        · exact ih p
        · rfl
      · rfl

theorem hold_runAll (o : CompileOptions) (p : Pipeline) :
  (p.runAll host o).hold clock store = p.runAll { now := clock, store := some store } o
  := by
  rw [runAll, runAll, hold_bind, hold_restore]
  apply bind_congr
  intro p
  split
  · rfl
  · rw [hold_bind, hold_runStages]
    apply bind_congr
    rintro ⟨p, _ | stop⟩
    · dsimp only
      rw [hold_bind, hold_save]
      apply bind_congr
      intro p
      split
      · apply hold_runStage
      · rfl
    · rfl

/-- A compilation in a host is the dialogue held with that host. -/
theorem hold_compile (o : CompileOptions) (files : FileSet) (file : File) (tracer : Tracer)
    (parent : Nat) :
  (compile host o files file tracer parent).hold clock store
    = compile { now := clock, store := some store } o files file tracer parent
  := by
  rw [compile, compile]
  apply bind_congr
  intro began
  dsimp only [Dialogue.bind]
  rw [hold_bind, hold_runAll]
  rfl

theorem hold_addFile (o : CompileOptions) (parent : Nat) (acc : DirectoryOutcome) (f : LoadedFile) :
  (DirectoryOutcome.addFile host o parent acc f).hold clock store
    = DirectoryOutcome.addFile { now := clock, store := some store } o parent acc f
  := by
  rw [DirectoryOutcome.addFile, DirectoryOutcome.addFile]
  split
  · rfl
  · split
    · rfl
    · split
      · rfl
      · rw [hold_bind, hold_compile]
        rfl

end

/-! ### What dialogues promise -/

variable {σ : Type} {good : Digest → Artifacts → Prop} {post : α → Prop}

/-- As long as only good artifacts are found, the dialogue puts only good artifacts into the store,
and `post` holds of what comes of it. -/
def Honours (good : Digest → Artifacts → Prop) (post : α → Prop) : Dialogue α → Prop
  | done a => post a
  | now rest => ∀ t, (rest t).Honours good post
  | get key rest =>
    ∀ answer, (∀ a, answer = .found a → good key a) → (rest answer).Honours good post
  | put key a rest => good key a ∧ ∀ message, (rest message).Honours good post

theorem Honours.bind {x : Dialogue α} {f : α → Dialogue β} {post' : β → Prop}
    (hx : x.Honours good post) (hf : ∀ a, post a → (f a).Honours good post') :
  (x >>= f).Honours good post'
  := by
  induction x with
  | done a => exact hf a hx
  | now rest ih => exact fun t => ih t (hx t)
  | get key rest ih => exact fun answer hfound => ih answer (hx answer hfound)
  | put key a rest ih => exact ⟨hx.1, fun message => ih message (hx.2 message)⟩

/-- A host that keeps something lets a dialogue go on as it promised. -/
theorem Honours.ask {clock : StateM σ Int} {store : ArtifactStore (StateM σ)} {kept : σ → Prop}
    (hk : CompileHost.Keeps { now := clock, store := some store } kept good) {x : Dialogue α}
    (hx : x.Honours good post) {w : σ} (hw : kept w) :
  kept ((x.ask clock store).run w).2 ∧ ((x.ask clock store).run w).1.Honours good post
  := by
  cases x with
  | done a => exact ⟨hw, hx⟩
  | now rest => exact ⟨hk.now w hw, hx _⟩
  | get key rest =>
      exact ⟨hk.get store rfl key w hw, hx _ fun a => hk.found store rfl key w a hw⟩
  | put key a rest => exact ⟨hk.put store rfl key w a hw hx.1, hx.2 _⟩

/-! ### Dialogues by heart -/

/-- An answer that is given by heart. -/
inductive Answer where
  | time (t : Int)
  | artifacts (key : Digest) (answer : StoreAnswer)
  | written (message : Option Text)

/-- The answers that are left, and what was put into the store. -/
structure Script where
  answers : List Answer := []
  written : List (Digest × Artifacts) := []

namespace Script

/-- Tells the next time. -/
def clock : StateM Script Int := fun s =>
  match s.answers with
  | .time t :: answers => (t, { s with answers })
  | _ => (0, s)

/-- Tells what the next look into the store finds, and remembers what is put there. -/
def store : ArtifactStore (StateM Script) where
  get := fun key s =>
    match s.answers with
    | .artifacts key' answer :: answers =>
      if key' = key then (answer, { s with answers }) else (.missing, s)
    | _ => (.missing, s)
  put := fun key a s =>
    let s := { s with written := (key, a) :: s.written }
    match s.answers with
    | .written message :: answers => (message, { s with answers })
    | _ => (none, s)

/-- All artifacts are good, those that will be found and those that were put into the store. -/
structure Fair (good : Digest → Artifacts → Prop) (s : Script) : Prop where
  found : ∀ key a, .artifacts key (.found a) ∈ s.answers → good key a
  written : ∀ x ∈ s.written, good x.1 x.2

theorem Fair.tail {s : Script} {answer : Answer} {answers : List Answer} (h : s.Fair good)
    (hanswers : s.answers = answer :: answers) :
  Fair good { s with answers }
  := by
  refine ⟨?_, h.written⟩
  intro key a hmem
  apply h.found
  rw [hanswers]
  exact List.mem_cons_of_mem answer hmem

theorem Fair.cons {s : Script} {answer : Answer} (h : s.Fair good)
    (hanswer : ∀ key a, answer = .artifacts key (.found a) → good key a) :
  Fair good { s with answers := answer :: s.answers }
  := by
  refine ⟨?_, h.written⟩
  intro key a hmem
  obtain heq | hmem := List.mem_cons.mp hmem
  · exact hanswer key a heq.symm
  · exact h.found key a hmem

theorem keeps_host (good : Digest → Artifacts → Prop) :
  CompileHost.Keeps { now := clock, store := some store } (Fair good) good
  := by
  refine ⟨?_, ?_, ?_, ?_⟩
  · intro s hs
    change Fair good (clock s).2
    rw [clock]
    split
    · next hanswers => exact hs.tail hanswers
    · exact hs
  · rintro _ ⟨⟩ key s hs
    change Fair good (store.get key s).2
    rw [store]
    dsimp only
    split
    · next hanswers =>
      split
      · exact hs.tail hanswers
      · exact hs
    · exact hs
  · rintro _ ⟨⟩ key s a hs hfound
    change (store.get key s).1 = _ at hfound
    rw [store] at hfound
    dsimp only at hfound
    split at hfound
    · next hanswers =>
      split at hfound
      · next hkey =>
        cases hkey
        cases hfound
        apply hs.found
        rw [hanswers]
        exact List.mem_cons_self
      · cases hfound
    · cases hfound
  · rintro _ ⟨⟩ key s a hs ha
    have hs' : Fair good { s with written := (key, a) :: s.written } :=
      ⟨hs.found, List.forall_mem_cons.mpr ⟨ha, hs.written⟩⟩
    change Fair good (store.put key a s).2
    rw [store]
    dsimp only
    split
    · next hanswers => exact hs'.tail hanswers
    · exact hs'

/-- What was put into the store stays remembered. -/
theorem written_hold (x : Dialogue α) (s : Script) :
  s.written ⊆ ((x.hold clock store).run s).2.written
  := by
  induction x generalizing s with
  | done a => exact List.Subset.refl _
  | now rest ih =>
      refine List.Subset.trans ?_ (ih (clock s).1 (clock s).2)
      rw [clock]
      split
      · exact List.Subset.refl _
      · exact List.Subset.refl _
  | get key rest ih =>
      refine List.Subset.trans ?_ (ih (store.get key s).1 (store.get key s).2)
      rw [store]
      dsimp only
      split
      · split
        · exact List.Subset.refl _
        · exact List.Subset.refl _
      · exact List.Subset.refl _
  | put key a rest ih =>
      refine List.Subset.trans ?_ (ih (store.put key a s).1 (store.put key a s).2)
      rw [store]
      dsimp only
      split
      · exact List.subset_cons_self _ _
      · exact List.subset_cons_self _ _

end Script

theorem hold_get (key : Digest) (rest : StoreAnswer → Dialogue α) (answer : StoreAnswer)
    (s : Script) :
  ((get key rest).hold Script.clock Script.store).run
      { s with answers := .artifacts key answer :: s.answers }
    = ((rest answer).hold Script.clock Script.store).run s
  := by
  have hget : Script.store.get key { s with answers := .artifacts key answer :: s.answers }
      = (answer, s) := if_pos rfl
  rw [hold, StateT.run_bind, StateT.run, hget]
  rfl

/-- A dialogue keeps its promises if it does so by heart, whatever the answers are and after
whatever was put into the store before. -/
theorem honours_of_hold {x : Dialogue α} {log : List (Digest × Artifacts)}
    (hlog : ∀ y ∈ log, good y.1 y.2)
    (h : ∀ s : Script, s.written = log → s.Fair good →
      ((x.hold Script.clock Script.store).run s).2.Fair good
        ∧ post ((x.hold Script.clock Script.store).run s).1) :
  x.Honours good post
  := by
  induction x generalizing log with
  | done a => exact (h { written := log } rfl ⟨by simp, hlog⟩).2
  | now rest ih =>
      intro t
      apply ih t hlog
      intro s hwritten hs
      exact h { s with answers := .time t :: s.answers } hwritten (hs.cons (by simp))
  | get key rest ih =>
      intro answer hfound
      apply ih answer hlog
      intro s hwritten hs
      rw [← hold_get key]
      apply h { s with answers := .artifacts key answer :: s.answers } hwritten
      apply hs.cons
      rintro _ a ⟨⟩
      exact hfound a rfl
  | put key a rest ih =>
      have hgood : good key a := by
        have hfair := (h { written := log } rfl ⟨by simp, hlog⟩).1
        apply hfair.written (key, a)
        exact Script.written_hold (rest none) { written := (key, a) :: log } List.mem_cons_self
      have hall : ∀ y ∈ (key, a) :: log, good y.1 y.2 :=
        List.forall_mem_cons.mpr ⟨hgood, hlog⟩
      refine ⟨hgood, ?_⟩
      intro message
      apply ih message hall
      rintro ⟨answers, _⟩ rfl hs
      apply h { answers := .written message :: answers, written := log } rfl
      apply Script.Fair.cons (s := { answers, written := log }) ⟨hs.found, hlog⟩
      simp

/-- A compilation puts only what it has made into a store, and tells what its stages make or what it
has found. -/
theorem honours_compile {o : CompileOptions} {files : FileSet} {file : File}
    (hgood : ∀ q, Pipeline.advanceAll o (Pipeline.stages o) (.start o files file) = (q, none) →
      q.result.reached = some .cpu → good (q.key o) (Pipeline.artifacts q.result))
    (tracer : Tracer) (parent : Nat) :
  (compile host o files file tracer parent).Honours good fun c =>
    c.Tells o (Pipeline.advanceRun o (.start o files file))
      ∨ ∃ a, good (Artifacts.key file.digest o.registers) a ∧ o.run = false
        ∧ c.Tells o ((Pipeline.start o files file).takeOver a, none)
  := by
  have hnone : ∀ y ∈ ([] : List (Digest × Artifacts)), good y.1 y.2 := by simp
  apply honours_of_hold hnone
  intro s _ hs
  rw [hold_compile]
  obtain ⟨hfair, ⟨htells, -⟩ | ⟨a, ha, -, hrun, htells, -⟩⟩ :=
    tells_compile (Script.keeps_host good) (fun _ q hq hreached _ => hgood q hq hreached)
      tracer parent hs
  · exact ⟨hfair, .inl htells⟩
  · exact ⟨hfair, .inr ⟨a, ha, hrun, htells⟩⟩

end Dialogue

end ThreeAddress
