import ThreeAddress.Proofs.Pipeline.Course
import ThreeAddress.Proofs.Pipeline.Endings

/-!
# Compilations trace well

Wherever a course opens a span it also closes it, whatever happens in between, and the parent that
it names is the innermost span that it has open.  A span that the tracer does not admit is
transparent: what is inside of it stands below what is around it.  Since no two courses draw the
same number, what several of them pass on to one tracer is well nested, in whatever order they move.
-/

namespace ThreeAddress

/-- An event has a number of its own, and not that of a span. -/
theorem Tracer.lastSpan_emit (t : Tracer) (e : TraceEvent) :
  (t.emit e).lastSpan = t.lastSpan
  := by
  have hstream : (t.emitToStream e).lastSpan = t.lastSpan := by
    rw [emitToStream]
    split
    · rfl
    · split
      · rfl
      · rfl
  have hring : ∀ t : Tracer, (t.emitToRing e).lastSpan = t.lastSpan := by
    intro t
    rw [emitToRing]
    split
    · rfl
    · rfl
  rw [emit]
  split
  · rw [hring, hstream]
  · rfl

/-- Open spans with one more, if that takes part in the trace. -/
def TraceSpan.onto (s : TraceSpan) (ms : List TraceMark) : List TraceMark :=
  if s.isLive then ⟨s.id, s.parent⟩ :: ms else ms

theorem TraceSpan.innermost_onto (outer : Nat) (s : TraceSpan) (ms : List TraceMark) :
  TraceMark.innermost outer (s.onto ms)
    = if s.isLive then s.id else TraceMark.innermost outer ms
  := by
  rw [onto]
  split
  · rfl
  · rfl

namespace Course

variable {α β : Type}

/-- From a hand on, the course opens and closes spans in turn, below `outer`, and ends with nothing
drawn; `post` holds of what comes of it and the spans that it leaves open. -/
def Nests (outer : Nat) (post : α → List TraceMark → Prop) : Course α → TraceHand → Prop
  | done a, h => h.drawn = none ∧ post a h.spans
  | now rest, h => ∀ time, (rest time).Nests outer post h
  | get _ rest, h => ∀ answer, (rest answer).Nests outer post h
  | put _ _ rest, h => ∀ message, (rest message).Nests outer post h
  | stopped rest, h => ∀ b, (rest b).Nests outer post h
  | admits _ rest, h => ∀ b, (rest b).Nests outer post h
  | draw rest, h => h.drawn = none ∧ ∀ n ≠ 0, (rest n).Nests outer post { h with drawn := some n }
  | pass e rest, h => ∃ h', h.Plays outer e h' ∧ rest.Nests outer post h'
  | amend _ _ rest, h => rest.Nests outer post h

variable {outer : Nat} {post : α → List TraceMark → Prop} {post' : β → List TraceMark → Prop}
  {h : TraceHand} {ms : List TraceMark}

theorem Nests.bind {x : Course α} {f : α → Course β} (hx : x.Nests outer post h)
    (hf : ∀ a ms, post a ms → (f a).Nests outer post' { spans := ms }) :
  (x >>= f).Nests outer post' h
  := by
  induction x generalizing h with
  | done a =>
      obtain ⟨spans, drawn⟩ := h
      obtain ⟨rfl, hpost⟩ : drawn = none ∧ post a spans := hx
      exact hf a spans hpost
  | now rest ih => exact fun time => ih time (hx time)
  | get key rest ih => exact fun answer => ih answer (hx answer)
  | put key a rest ih => exact fun message => ih message (hx message)
  | stopped rest ih => exact fun b => ih b (hx b)
  | admits scope rest ih => exact fun b => ih b (hx b)
  | draw rest ih => exact ⟨hx.1, fun n hn => ih n (hx.2 n hn)⟩
  | pass e rest ih =>
      obtain ⟨h', hplays, hrest⟩ := hx
      exact ⟨h', hplays, ih hrest⟩
  | amend span extra rest ih => exact ih hx

/-! ### Opening and closing -/

theorem nests_openSpan {parent : Nat} (hparent : parent = TraceMark.innermost outer ms) (time : Int)
    (scope : TraceScope) (name : Text) :
  (openSpan time scope name parent).Nests outer (fun s ms' => ms' = s.onto ms) { spans := ms }
  := by
  intro admitted
  cases admitted with
  | false => exact ⟨rfl, rfl⟩
  | true =>
      refine ⟨rfl, fun n hn => ⟨_, .begins rfl hparent, rfl, ?_⟩⟩
      exact (if_pos (bne_iff_ne.mpr hn)).symm

theorem nests_note (s : TraceSpan) (key value : Text) :
  (note s key value).Nests outer (fun s' ms' => ms' = s'.onto ms) { spans := s.onto ms }
  := by
  rw [note]
  split
  · exact ⟨rfl, rfl⟩
  · exact ⟨rfl, rfl⟩

theorem nests_noteAll (notes : List (Text × Text)) (s : TraceSpan) :
  (noteAll s notes).Nests outer (fun s' ms' => ms' = s'.onto ms) { spans := s.onto ms }
  := by
  induction notes generalizing s with
  | nil => exact ⟨rfl, rfl⟩
  | cons n notes ih =>
      apply (nests_note s n.1 n.2).bind
      rintro s' _ rfl
      exact ih s'

theorem nests_closeSpan (time : Int) (s : TraceSpan) (notes : List (Text × Text)) (detail : Text) :
  (closeSpan time s notes detail).Nests outer (fun _ ms' => ms' = ms) { spans := s.onto ms }
  := by
  apply (nests_noteAll notes s).bind
  rintro s' _ rfl
  dsimp only [TraceSpan.onto]
  split
  · exact ⟨_, .ends rfl, rfl, rfl⟩
  · exact ⟨rfl, rfl⟩

/-! ### The parts of a compilation -/

open Pipeline (Body stages)

/-- The spans are as before, and the pipeline stands below the innermost one. -/
def Below (outer : Nat) (ms : List TraceMark) (q : Pipeline) (ms' : List TraceMark) : Prop :=
  ms' = ms ∧ q.parent = TraceMark.innermost outer ms

theorem nests_runStage {p : Pipeline} (hp : p.parent = TraceMark.innermost outer ms) (stage : Stage)
    {f : Body} (hf : ∀ p, (f p).1.parent = p.parent) :
  (runStage stage f p).Nests outer (fun r => Below outer ms r.1) { spans := ms }
  := by
  intro cancelled
  cases cancelled with
  | true => exact ⟨rfl, rfl, hp⟩
  | false =>
      intro began
      refine (nests_openSpan hp _ _ _).bind ?_
      rintro span _ rfl
      intro ended
      refine (nests_closeSpan _ _ _ _).bind ?_
      rintro ⟨⟩ _ rfl
      exact ⟨rfl, rfl, (hf _).trans hp⟩

theorem nests_runStages (o : CompileOptions) {fs : List (Stage × Body)}
    (hfs : ∀ x ∈ fs, ∀ p, (x.2 p).1.parent = p.parent) {p : Pipeline}
    (hp : p.parent = TraceMark.innermost outer ms) :
  (runStages o fs p).Nests outer (fun r => Below outer ms r.1) { spans := ms }
  := by
  induction fs generalizing p with
  | nil => exact ⟨rfl, rfl, hp⟩
  | cons x fs ih =>
      obtain ⟨stage, f⟩ := x
      obtain ⟨hf, hfs⟩ := List.forall_mem_cons.mp hfs
      rw [runStages]
      split
      · refine (nests_runStage hp stage hf).bind ?_
        rintro ⟨q, _ | stop⟩ _ ⟨rfl, hq⟩
        · exact ih hfs hq
        · exact ⟨rfl, rfl, hq⟩
      · exact ⟨rfl, rfl, hp⟩

theorem nests_restore (stored : Bool) (o : CompileOptions) {p : Pipeline}
    (hp : p.parent = TraceMark.innermost outer ms) :
  (restore stored o p).Nests outer (Below outer ms) { spans := ms }
  := by
  rw [restore]
  split
  · exact ⟨rfl, rfl, hp⟩
  · intro began
    refine (nests_openSpan hp _ _ _).bind ?_
    rintro span _ rfl
    intro answer ended
    refine (nests_closeSpan _ _ _ _).bind ?_
    rintro ⟨⟩ _ rfl
    refine ⟨rfl, rfl, ?_⟩
    cases answer with
    | unreadable message => exact hp
    | missing => exact hp
    | found a =>
        dsimp only [answered]
        split
        · exact hp
        · exact hp

theorem nests_save (stored : Bool) (o : CompileOptions) {p : Pipeline}
    (hp : p.parent = TraceMark.innermost outer ms) :
  (save stored o p).Nests outer (Below outer ms) { spans := ms }
  := by
  rw [save]
  split
  · exact ⟨rfl, rfl, hp⟩
  · intro message
    cases message with
    | none => exact ⟨rfl, rfl, hp⟩
    | some message =>
        intro time
        refine (nests_openSpan hp _ _ _).bind ?_
        rintro span _ rfl
        refine (nests_closeSpan _ _ _ _).bind ?_
        rintro ⟨⟩ _ rfl
        exact ⟨rfl, rfl, hp⟩

theorem parent_of_mem_stages {o : CompileOptions} {x : Stage × Body} (h : x ∈ stages o)
    (p : Pipeline) :
  (x.2 p).1.parent = p.parent
  := by
  simp only [stages, List.mem_cons, List.not_mem_nil, or_false] at h
  obtain rfl | rfl | rfl | rfl | rfl | rfl := h
  all_goals rfl

theorem nests_runAll (stored : Bool) (o : CompileOptions) {p : Pipeline}
    (hp : p.parent = TraceMark.innermost outer ms) :
  (runAll stored o p).Nests outer (fun r => Below outer ms r.1) { spans := ms }
  := by
  refine (nests_restore stored o hp).bind ?_
  rintro p₁ _ ⟨rfl, hp₁⟩
  split
  · exact ⟨rfl, rfl, hp₁⟩
  · refine (nests_runStages o (fun x => parent_of_mem_stages) hp₁).bind ?_
    rintro ⟨p₂, _ | stop⟩ _ ⟨rfl, hp₂⟩
    · refine (nests_save stored o hp₂).bind ?_
      rintro p₃ _ ⟨rfl, hp₃⟩
      split
      · exact nests_runStage hp₃ .run fun _ => rfl
      · exact ⟨rfl, rfl, hp₃⟩
    · exact ⟨rfl, rfl, hp₂⟩

theorem nests_conclude (p : Pipeline) (stop : Option Stop) (began ended : Int) (span : TraceSpan) :
  (conclude p stop began ended span).Nests outer (fun _ ms' => ms' = ms) { spans := span.onto ms }
  := by
  refine (nests_closeSpan _ _ _ _).bind ?_
  rintro ⟨⟩ _ rfl
  exact ⟨rfl, rfl⟩

theorem nests_compile (stored : Bool) (o : CompileOptions) (files : FileSet) (file : File) :
  (compile stored o files file outer).Nests outer (fun _ ms => ms = []) {}
  := by
  have hroot : outer = TraceMark.innermost outer [] := rfl
  intro began
  refine (nests_openSpan hroot _ _ _).bind ?_
  rintro s _ rfl
  refine (nests_note s _ _).bind ?_
  rintro span _ rfl
  have hparent := TraceSpan.innermost_onto outer span []
  refine (nests_runAll stored o hparent.symm).bind ?_
  rintro ⟨q, stop⟩ _ ⟨rfl, -⟩
  exact fun ended => nests_conclude q stop began ended span

theorem nests_addFile (stored : Bool) {job : DirectoryJob} (hjob : job.parent = outer)
    (f : LoadedFile) :
  (addFile stored job f).Nests outer (fun _ ms => ms = []) {}
  := by
  subst hjob
  intro cancelled
  cases cancelled with
  | true => exact ⟨rfl, rfl⟩
  | false =>
      dsimp only [Bool.false_eq_true, if_false]
      cases f.file with
      | error e => exact ⟨rfl, rfl⟩
      | ok file =>
          refine (nests_compile stored _ _ file).bind ?_
          rintro c _ rfl
          exact ⟨rfl, rfl⟩

theorem nests_openDirectory (dir : Text) (count : Nat) :
  (openDirectory dir count outer).Nests outer (fun s ms => ms = s.onto []) {}
  := by
  have hroot : outer = TraceMark.innermost outer [] := rfl
  intro began
  refine (nests_openSpan hroot _ _ _).bind ?_
  rintro s _ rfl
  refine (nests_note s _ _).bind ?_
  rintro s' _ rfl
  exact nests_note s' _ _

theorem nests_closeDirectory (s : TraceSpan) :
  (closeDirectory s).Nests outer (fun _ ms => ms = []) { spans := s.onto [] }
  := fun _ => nests_closeSpan _ _ _ _

/-! ### Several courses -/

/-- The courses hold hands that are tied to what was passed on. -/
def Sound (outer : Nat) (base : List TraceMark) (post : α → List TraceMark → Prop)
    (c : Scene × List (Course α)) : Prop :=
  outer ≤ c.1.tracer.lastSpan ∧ ∃ hands,
    List.Forall₂ (fun h x => x.Nests (TraceMark.innermost outer base) post h) hands c.2
      ∧ c.1.log.Held outer base hands c.1.tracer.lastSpan

/-- What stands in relation to things one of which may be replaced may be replaced with it. -/
theorem exists_split_of_forall₂ {γ δ : Type} {R : γ → δ → Prop} {l : List γ} {before after : List δ}
    {x : δ} (h : List.Forall₂ R l (before ++ x :: after)) :
  ∃ before' a after', l = before' ++ a :: after' ∧ R a x
    ∧ ∀ a' x', R a' x' → List.Forall₂ R (before' ++ a' :: after') (before ++ x' :: after)
  := by
  induction before generalizing l with
  | nil =>
      cases h with
      | @cons a _ l _ ha hl => exact ⟨[], a, l, rfl, ha, fun a' x' h' => .cons h' hl⟩
  | cons b before ih =>
      cases h with
      | @cons a _ l _ ha hl =>
          obtain ⟨before', a', after', rfl, hx, hreplace⟩ := ih hl
          exact ⟨a :: before', a', after', rfl, hx, fun a'' x' h' => .cons ha (hreplace a'' x' h')⟩

/-- What a move does to a hand and to what was passed on. -/
theorem Nests.step {s s' : Scene} {x x' : Course α} {base : List TraceMark}
    {before after : List TraceHand}
    (hx : x.Nests (TraceMark.innermost outer base) post h)
    (hle : outer ≤ s.tracer.lastSpan)
    (hheld : s.log.Held outer base (before ++ h :: after) s.tracer.lastSpan)
    (hstep : Step (s, x) (s', x')) :
  outer ≤ s'.tracer.lastSpan ∧ ∃ h', x'.Nests (TraceMark.innermost outer base) post h'
    ∧ s'.log.Held outer base (before ++ h' :: after) s'.tracer.lastSpan
  := by
  cases hstep with
  | now time => exact ⟨hle, h, hx time, hheld⟩
  | get answer => exact ⟨hle, h, hx answer, hheld⟩
  | put message => exact ⟨hle, h, hx message, hheld⟩
  | stopped b => exact ⟨hle, h, hx b, hheld⟩
  | admits => exact ⟨hle, h, hx _, hheld⟩
  | draw =>
      obtain ⟨spans, drawn⟩ := h
      obtain ⟨rfl, hrest⟩ : drawn = none ∧ _ := hx
      exact ⟨Nat.le_succ_of_le hle, _, hrest _ (Nat.succ_ne_zero _), hheld.draw hle⟩
  | pass =>
      obtain ⟨h', hplays, hrest⟩ := hx
      rw [Tracer.lastSpan_emit]
      exact ⟨hle, h', hrest, hheld.play hplays⟩
  | amend => exact ⟨hle, h, hx, hheld⟩

theorem Sound.turn {base : List TraceMark} {c d : Scene × List (Course α)}
    (hc : Sound outer base post c) (hturn : Turn c d) :
  Sound outer base post d
  := by
  cases hturn with
  | turn hstep =>
      obtain ⟨hle, hands, hall, hheld⟩ := hc
      obtain ⟨before, h, after, rfl, hx, hreplace⟩ := exists_split_of_forall₂ hall
      obtain ⟨hle', h', hx', hheld'⟩ := hx.step hle hheld hstep
      exact ⟨hle', _, hreplace h' _ hx', hheld'⟩

theorem Sound.turns {base : List TraceMark} {c d : Scene × List (Course α)}
    (hc : Sound outer base post c) (hturns : Turns c d) :
  Sound outer base post d
  := by
  induction hturns with
  | refl => exact hc
  | tail _ hturn ih => exact ih.turn hturn

theorem sound_of_nests {x : Course α} {s : Scene} (hx : x.Nests outer post h)
    (hle : outer ≤ s.tracer.lastSpan) (hheld : s.log.Held outer [] [h] s.tracer.lastSpan) :
  Sound outer [] post (s, [x])
  := ⟨hle, [h], .cons hx .nil, hheld⟩

/-- At the end each course has left its hand as it promised. -/
theorem Sound.exists_hands {base : List TraceMark} {s : Scene} {as : List α}
    (hc : Sound outer base post (s, as.map done)) :
  outer ≤ s.tracer.lastSpan ∧ ∃ hands,
    List.Forall₂ (fun (h : TraceHand) a => h.drawn = none ∧ post a h.spans) hands as
      ∧ s.log.Held outer base hands s.tracer.lastSpan
  := by
  obtain ⟨hle, hands, hall, hheld⟩ := hc
  exact ⟨hle, hands, List.forall₂_map_right_iff.mp hall, hheld⟩

/-- A course alone, at its end. -/
theorem Nests.turns {x : Course α} {s s' : Scene} {a : α} (hx : x.Nests outer post h)
    (hle : outer ≤ s.tracer.lastSpan) (hheld : s.log.Held outer [] [h] s.tracer.lastSpan)
    (hturns : Turns (s, [x]) (s', [done a])) :
  outer ≤ s'.tracer.lastSpan ∧ ∃ ms, post a ms
    ∧ s'.log.Held outer [] [{ spans := ms }] s'.tracer.lastSpan
  := by
  have hsound : Sound outer [] post (s', [a].map done) :=
    (sound_of_nests hx hle hheld).turns hturns
  obtain ⟨hle', hands, hall, hheld'⟩ := hsound.exists_hands
  cases hall with
  | @cons h' _ hands _ hdone hrest =>
      cases hrest
      obtain ⟨spans, drawn⟩ := h'
      obtain ⟨rfl, hpost⟩ : drawn = none ∧ post a spans := hdone
      exact ⟨hle', spans, hpost, hheld'⟩

/-- What the compilation of a file passes on is well nested. -/
theorem wellNested_of_turns_compile {stored : Bool} {o : CompileOptions} {files : FileSet}
    {file : File} {tracer : Tracer} (hle : outer ≤ tracer.lastSpan) {finish : Scene}
    {c : CompileOutcome}
    (hturns : Turns ({ tracer }, [compile stored o files file outer]) (finish, [done c])) :
  finish.log.WellNested outer
  := by
  obtain ⟨-, ms, rfl, hheld⟩ :=
    (nests_compile stored o files file).turns hle (TraceLog.held_nil ..) hturns
  exact hheld.wellNested

/-- So is what the compilation of a directory passes on. -/
theorem DirectoryRun.wellNested {stored : Bool} {o : CompileOptions} {files : FileSet} {dir : Text}
    {loaded : List LoadedFile} {tracer : Tracer} (hle : outer ≤ tracer.lastSpan) {finish : Scene}
    (hrun : DirectoryRun stored o files dir loaded outer { tracer } finish) :
  finish.log.WellNested outer
  := by
  cases hrun with
  | @intro span s s' outcomes hopen hwork hclose =>
      obtain ⟨hle₁, _, rfl, hheld₁⟩ :=
        (nests_openDirectory dir loaded.length).turns hle (TraceLog.held_nil ..) hopen
      let job : DirectoryJob :=
        { options := o, files, parent := if span.isLive then span.id else outer }
      have hstart : Sound outer (span.onto []) (fun _ ms => ms = [])
          (s, loaded.map (addFile stored job)) := by
        refine ⟨hle₁, loaded.map fun _ => {}, ?_, ?_⟩
        · rw [List.forall₂_map_left_iff, List.forall₂_map_right_iff, List.forall₂_same]
          exact fun f _ => nests_addFile stored (TraceSpan.innermost_onto outer span []).symm f
        · apply (TraceLog.held_iff_of_empty _).mpr hheld₁
          intro h hh
          obtain ⟨f, -, rfl⟩ := List.mem_map.mp hh
          rfl
      obtain ⟨hle₂, hands, hall, hheld₂⟩ := (hstart.turns hwork).exists_hands
      have hempty : List.Forall₂ (fun h _ => h = {} ∧ True) hands outcomes := by
        refine hall.imp ?_
        rintro ⟨spans, drawn⟩ a ⟨hdrawn, hspans⟩
        obtain rfl : drawn = none := hdrawn
        obtain rfl : spans = [] := hspans
        exact ⟨rfl, trivial⟩
      have hempty := ((List.forall₂_and_left ..).mp hempty).1
      have hheld₂ := (TraceLog.held_iff_of_empty hempty).mp hheld₂
      obtain ⟨-, _, rfl, hheld₃⟩ := (nests_closeDirectory span).turns hle₂ hheld₂ hclose
      exact hheld₃.wellNested

end Course

/-- Traces are well nested, whatever the tracer admits.  A compilation is a run of its course, and
so is that of a directory, unless there is no file in it.  Whatever is answered to the courses, and
in whatever order those of a directory move, the spans passed on are well nested below `outer`, the
span around them, or zero if there is none. -/
theorem trace_spans_nest {σ : Type} (host : CompileHost (StateM σ)) (o : CompileOptions)
    (tracer : Tracer) :
  (∀ files file outer,
    let course := Course.compile host.store.isSome o files file outer
    (∀ w, let c := ((compile host o files file tracer outer).run w).1
      ∃ log, Course.Turns ({ tracer }, [course])
        ({ tracer := c.tracer, log }, [.done { c with tracer := {} }]))
    ∧ ∀ finish c, outer ≤ tracer.lastSpan →
      Course.Turns ({ tracer }, [course]) (finish, [.done c]) → finish.log.WellNested outer)
  ∧ (∀ fs cwd dir w out w', (compileDirectory host fs o cwd dir tracer).run w = (.ok out, w') →
    out = { files := { baseDir := dir, cwd }, tracer }
      ∨ ∃ files loaded log, Course.DirectoryRun host.store.isSome o files dir loaded 0 { tracer }
        { tracer := out.tracer, log })
  ∧ ∀ files dir loaded outer finish, outer ≤ tracer.lastSpan →
    Course.DirectoryRun host.store.isSome o files dir loaded outer { tracer } finish →
      finish.log.WellNested outer
  := by
  refine ⟨?_, ?_, ?_⟩
  · intro files file outer course
    refine ⟨fun w => Course.turns_compile host o files file tracer outer w, ?_⟩
    exact fun finish c hle hturns => Course.wellNested_of_turns_compile hle hturns
  · exact fun fs cwd dir w out w' h => Course.directoryRun_of_compileDirectory host h
  · exact fun files dir loaded outer finish hle hrun => hrun.wellNested hle

theorem trace_spans_nest_undeclaredSum :
  let tracer : Tracer := { level := ⟨4⟩, ring := some {} }
  let c := ((compile stillHost { last := some .lex } {} undeclaredSum tracer 0).run ()).1
  c.tracer.lastSpan = 2 ∧ ∃ log, Course.Turns
      ({ tracer }, [Course.compile false { last := some .lex } {} undeclaredSum 0])
      ({ tracer := c.tracer, log }, [.done { c with tracer := {} }])
    ∧ log.WellNested 0
  := by
  intro tracer c
  obtain ⟨hruns, hnest⟩ :=
    (trace_spans_nest stillHost { last := some .lex } tracer).1 {} undeclaredSum 0
  obtain ⟨log, hturns⟩ := hruns ()
  refine ⟨by decide +kernel, log, hturns, hnest _ _ (Nat.zero_le _) hturns⟩

end ThreeAddress
