import ThreeAddress.Proofs.Code.Relocation
import ThreeAddress.Proofs.Pipeline.Endings
import ThreeAddress.Proofs.Pipeline.Stored
import ThreeAddress.Proofs.Register.Colouring

/-!
# Stores are transparent

Artifacts depend on nothing but the content of a file and the register file.  So a compilation that
finds artifacts under the key of its own file and registers could have made them itself, and tells
the same as a compilation without a store.
-/

namespace ThreeAddress

/-! ### What artifacts depend on -/

theorem fileTokens_inFile (file : FileId) (ls : List Lexed) :
  fileTokens (ls.map (Lexed.inFile file)) = (fileTokens ls).map (Token.inFile file)
  := by
  have htokens : (ls.map (Lexed.inFile file)).map (·.token)
      = (ls.map (·.token)).map (Token.inFile file) := by
    rw [List.map_map, List.map_map]
    rfl
  rw [fileTokens, fileTokens, htokens, List.takeWhile_map]
  rfl

/-- The same content is the same program, wherever it stands. -/
theorem File.Means.of_content_eq {file file' : File} {ss : List Stmt} {code : Program}
    {table : SymbolTable} (h : file.Means ss code table) (hcontent : file'.content = file.content) :
  ∃ ss', file'.Means ss' code table
  := by
  have hlex := File.lex_of_content_eq hcontent
  have hmove : Grammar.Moves (Token.inFile file'.id) := ⟨fun _ => rfl, fun _ => rfl⟩
  obtain ⟨ss', hprogram, hcode⟩ := Grammar.IsProgram.moved hmove h.program h.code
  refine ⟨ss', ?_, ?_, hcode⟩
  · rw [hlex, List.forall_mem_map]
    exact h.clean
  · rw [hlex, fileTokens_inFile]
    exact hprogram

namespace Allocation

/-- Registers are allocated by their names. -/
theorem ofProgram_of_normalize_eq {file file' : RegisterFile}
    (h : file.normalize = file'.normalize) (blocks : Option Graph) (p : Program) :
  ofProgram file blocks p = ofProgram file' blocks p
  := by
  have hnames : file.names = file'.names := by rw [RegisterFile.names, RegisterFile.names, h]
  rw [ofProgram, ofProgram, hnames]

/-- The allocations are the same but for the index, which tells the same neighbours. -/
structure Agrees (a b : Allocation) : Prop where
  fields : a.dropIndex = b.dropIndex
  neighbours : ∀ name, a.graph.neighbours name = b.graph.neighbours name

theorem Agrees.refl (a : Allocation) :
  a.Agrees a
  := ⟨rfl, fun _ => rfl⟩

theorem Agrees.spillFindings {a b : Allocation} (h : a.Agrees b) (span : Span) :
  a.spilled.map (a.spillFinding span) = b.spilled.map (b.spillFinding span)
  := by
  have hspilled : a.spilled = b.spilled := congrArg (·.spilled) h.fields
  have hfile : a.file = b.file := congrArg (·.file) h.fields
  rw [hspilled]
  apply List.map_congr_left
  intro name _
  rw [spillFinding, spillFinding, hfile]

/-- Without the index the neighbours are the same. -/
theorem agrees_dropIndex (file : RegisterFile) (blocks : Option Graph) (p : Program) :
  (ofProgram file blocks p).dropIndex.Agrees (ofProgram file blocks p)
  := by
  refine ⟨rfl, fun name => ?_⟩
  have hgraph : (ofProgram file blocks p).graph
      = ((Interference.ofRanges p.liveRanges).colour file.names).1 := rfl
  rw [dropIndex, hgraph, Interference.colour, Interference.colourFrom_colours,
    Interference.dropIndex, Interference.neighbours, Interference.neighbours]
  dsimp only
  rw [Interference.index_ofRanges]
  rfl

end Allocation

namespace Pipeline

variable {o o' : CompileOptions} {file file' : File} {p p' : Pipeline}

/-- A file that went through all stages has a meaning. -/
theorem Healthy.means (h : Healthy o file 6 p) :
  file.Means p.result.statements p.result.program p.table
  := ⟨h.clean (by omega), h.program (by omega), (h.code (by omega)).1⟩

/-- Artifacts depend only on the content of the file and on the registers. -/
theorem Healthy.artifacts_eq (h : Healthy o file 6 p) (h' : Healthy o' file' 6 p')
    (hcontent : file'.content = file.content)
    (hregisters : o'.registers.normalize = o.registers.normalize) :
  artifacts p'.result = { artifacts p.result with path := file'.path }
  := by
  obtain ⟨ss, hmeans⟩ := h.means.of_content_eq hcontent
  obtain ⟨-, hprogram, htable⟩ := h'.eq_of_means hmeans (by omega)
  have hsymbols : p'.result.symbols = p.result.symbols := by
    rw [(h'.code (by omega)).2, (h.code (by omega)).2, htable]
  have hgraph : p'.result.graph = p.result.graph := by
    rw [h'.graph (by omega), h.graph (by omega), hprogram]
  have hallocation : p'.result.allocation = p.result.allocation := by
    rw [h'.allocation, h.allocation, if_pos (by omega), if_pos (by omega), hgraph, hprogram,
      Allocation.ofProgram_of_normalize_eq hregisters]
  have hmachine : p'.result.machine = p.result.machine := by
    have hlower := h'.machine (by omega)
    rw [hprogram, htable, h.machine (by omega)] at hlower
    exact (Except.ok.inj hlower).symm
  rw [artifacts, artifacts, h'.source, hsymbols, hprogram, hgraph, hallocation, hmachine]

/-- A compilation that reaches machine code without a stop has gone through all stages. -/
theorem healthy_of_reached {files : FileSet}
    (h : advanceAll o (stages o) (start o files file) = (p, none))
    (hreached : p.result.reached = some .cpu) :
  Healthy o file 6 p
  := by
  cases hcancel : o.cancelled with
  | true =>
      have hfirst : advanceAll o (stages o) (start o files file)
          = if wants o .lex then (start o files file, some .cancelled)
            else (start o files file, none) := by
        rw [stages, advanceAll, advance, hcancel]
        rfl
      rw [hfirst] at h
      split at h
      · cases h
      · cases h
        cases hreached
  | false =>
      obtain ⟨hstop, -⟩ | ⟨-, m, hle, hm, -⟩ :=
        (healthy_start files file).advanceAll (Nat.zero_le _) hcancel List.drop_zero
      · rw [h] at hstop
        cases hstop
      · rw [h] at hm
        rw [hm.reached] at hreached
        have hlast : ∀ m ≤ 6, (Stage.order.take m).getLast? = some .cpu → m = 6 := by decide
        obtain rfl := hlast m hle hreached
        exact hm

end Pipeline

/-! ### Agreement -/

/-- The bag without the times of a compilation. -/
def Bag.untimed (b : Bag) : Bag := { b with items := b.items.filter (·.code ≠ .timings) }

theorem Bag.untimed_addBeyond (b : Bag) {d e : Diagnostic} (hd : d.code = .timings)
    (he : e.code = .timings) :
  (b.addBeyond d).untimed = (b.addBeyond e).untimed
  := by
  have hfilter : ∀ {d : Diagnostic}, d.code = .timings →
      (b.items ++ [d]).filter (·.code ≠ .timings) = b.items.filter (·.code ≠ .timings) := by
    intro d hd
    simp [hd]
  rw [addBeyond, addBeyond]
  split
  · rw [merge, merge, untimed, untimed, hfilter hd, hfilter he, List.length_append,
      List.length_append]
    rfl
  · next hfull =>
    rw [add, add, if_neg hfull, if_neg hfull, untimed, untimed, hfilter hd, hfilter he]

/-- The artifacts are the same, perhaps of different files. -/
structure Artifacts.Agrees (a b : Artifacts) : Prop where
  symbols : a.symbols = b.symbols
  program : a.program = b.program
  graph : a.graph = b.graph
  allocation : Option.Rel Allocation.Agrees a.allocation b.allocation
  machine : a.machine = b.machine

theorem Artifacts.Agrees.refl (a : Artifacts) :
  a.Agrees a
  := by
  refine ⟨rfl, rfl, rfl, ?_, rfl⟩
  cases a.allocation with
  | none => exact .none
  | some a => exact .some (.refl a)

/-- The results have the same artifacts, stage and findings; the times of the compilations, and what
was made before the code, may differ. -/
structure CompileResult.Agrees (r r' : CompileResult) : Prop where
  artifacts : (Pipeline.artifacts r).Agrees (Pipeline.artifacts r')
  reached : r.reached = r'.reached
  bag : r.bag.untimed = r'.bag.untimed

/-- Compilations tell the same if their pipelines made the same. -/
theorem CompileOutcome.Tells.agrees {c d : CompileOutcome} {o : CompileOptions}
    {q q' : Pipeline × Option Stop} (h : c.Tells o q) (h' : d.Tells o q')
    (hartifacts : (Pipeline.artifacts q.1.result).Agrees (Pipeline.artifacts q'.1.result))
    (hreached : q.1.result.reached = q'.1.result.reached)
    (hbag : q.1.result.bag = q'.1.result.bag) :
  c.result.Agrees d.result
  := by
  have hbags : c.result.bag.untimed = d.result.bag.untimed := by
    have htold := h.bag
    have htold' := h'.bag
    split at htold
    · next htimings =>
      rw [if_pos htimings] at htold'
      obtain ⟨name, report, htold⟩ := htold
      obtain ⟨name', report', htold'⟩ := htold'
      rw [htold, htold', hbag]
      exact Bag.untimed_addBeyond _ rfl rfl
    · next htimings =>
      rw [if_neg htimings] at htold'
      rw [htold, htold', hbag]
  rw [← h.result, ← h'.result] at hartifacts hreached
  exact ⟨hartifacts, hreached, hbags⟩

namespace Pipeline

variable {o : CompileOptions} {file : File} {p : Pipeline}

/-- A store gives back what was made, but for the index. -/
theorem Healthy.agrees_dropIndex (h : Healthy o file 6 p) :
  (artifacts p.result).dropIndex.Agrees (artifacts p.result)
  := by
  refine ⟨rfl, rfl, rfl, ?_, rfl⟩
  have hallocation : p.result.allocation = some _ := h.allocation
  change Option.Rel _ (p.result.allocation.map Allocation.dropIndex) p.result.allocation
  rw [hallocation]
  exact .some (Allocation.agrees_dropIndex ..)

theorem Healthy.exists_allocation (h : Healthy o file 6 p) {a : Artifacts}
    (ha : a.Agrees (artifacts p.result)) :
  ∃ alloc made, a.allocation = some alloc ∧ p.result.allocation = some made ∧ alloc.Agrees made
  := by
  have hmade : p.result.allocation = some _ := h.allocation
  have hrel : Option.Rel Allocation.Agrees a.allocation p.result.allocation := ha.allocation
  rw [hmade] at hrel
  cases halloc : a.allocation with
  | none =>
      rw [halloc] at hrel
      cases hrel
  | some alloc =>
      rw [halloc] at hrel
      cases hrel with
      | some hagrees => exact ⟨alloc, _, rfl, hmade, hagrees⟩

/-- What is taken over agrees with what the stages make, down to the findings about it. -/
theorem Healthy.takeOver (h : Healthy o file 6 p) (files : FileSet) {a : Artifacts}
    (ha : a.Agrees (artifacts p.result)) :
  let r := ((start o files file).takeOver a).result
  (artifacts r).Agrees (artifacts p.result) ∧ r.reached = p.result.reached
    ∧ r.bag = p.result.bag
  := by
  have hgraph : a.graph = some (Graph.build p.result.program) :=
    ha.graph.trans (h.graph (by omega))
  obtain ⟨alloc, made, halloc, hmade, hagrees⟩ := h.exists_allocation ha
  rw [takeOver_eq _ hgraph halloc, (h.wellFormed (by omega)).dangling_build]
  refine ⟨⟨ha.symbols, ha.program, ha.graph, ha.allocation, ha.machine⟩, h.reached.symm, ?_⟩
  -- No jump leads nowhere, so the findings are those about registers, under the same limit.
  let bag := (Bag.ofLimit o.maxDiagnostics).addAll
    (alloc.spilled.map (alloc.spillFinding { file := file.id }))
  have hlimit : bag.limit = p.result.bag.limit := (Bag.limit_addAll ..).trans h.limit.symm
  have hitems : bag.items = p.result.bag.items := by
    rw [h.items, hmade, Bag.items_addAll_of_nil rfl, hagrees.spillFindings]
    rfl
  calc bag
    _ = ⟨bag.items, bag.limit⟩ := rfl
    _ = ⟨p.result.bag.items, p.result.bag.limit⟩ := by rw [hitems, hlimit]

end Pipeline

/-! ### Requests -/

/-- A compilation that is asked for. -/
structure Request where
  options : CompileOptions := {}
  files : FileSet := {}
  file : File := {}
  tracer : Tracer := {}
  parent : Nat := 0

namespace Request

/-- Compiles what is asked for. -/
def compile {m : Type → Type} [Monad m] (host : CompileHost m) (r : Request) : m CompileOutcome :=
  ThreeAddress.compile host r.options r.files r.file r.tracer r.parent

/-- The text whose digest is the key of the artifacts. -/
def keyText (r : Request) : Text := Artifacts.keyText r.file.content r.options.registers

/-- The key of the artifacts. -/
def key (r : Request) : Digest := Artifacts.key r.file.digest r.options.registers

/-- The artifacts are what the request makes if nothing is stored: all stages up to the machine code
are asked for and succeed. -/
def Makes (r : Request) (a : Artifacts) : Prop :=
  ∃ p, Pipeline.advanceAll r.options (Pipeline.stages r.options) (.start r.options r.files r.file)
      = (p, none)
    ∧ p.result.reached = some .cpu ∧ a = Pipeline.artifacts p.result

/-- Digests tell the requests apart. -/
structure Apart (r r' : Request) : Prop where
  content : Digest.sha256 r.file.content = Digest.sha256 r'.file.content →
    r.file.content = r'.file.content
  key : Digest.sha256 r.keyText = Digest.sha256 r'.keyText → r.keyText = r'.keyText

theorem Makes.healthy {r : Request} {a : Artifacts} (h : r.Makes a) :
  ∃ p, Pipeline.Healthy r.options r.file 6 p ∧ a = Pipeline.artifacts p.result
  := by
  obtain ⟨p, hp, hreached, ha⟩ := h
  exact ⟨p, Pipeline.healthy_of_reached hp hreached, ha⟩

/-- The same key is the same content and the same registers. -/
theorem Apart.eq_of_key {r r' : Request} (h : r.Apart r') (hkey : r.key = r'.key) :
  r.file.content = r'.file.content
    ∧ r.options.registers.normalize = r'.options.registers.normalize
  := by
  have hdigest : Digest.sha256 r.keyText = Digest.sha256 r'.keyText := by
    rw [keyText, keyText, ← Artifacts.key_eq, ← Artifacts.key_eq]
    exact hkey
  obtain ⟨hcontent, hregisters⟩ := Artifacts.keyText_inj (h.key hdigest)
  exact ⟨h.content hcontent, hregisters⟩

/-- Artifacts in a store: some request made them, and perhaps their index was dropped. -/
def Stored (rs : List Request) (key : Digest) (a : Artifacts) : Prop :=
  ∃ r ∈ rs, r.key = key ∧ ∃ b, r.Makes b ∧ (a = b ∨ a = b.dropIndex)

end Request

/-! ### Uses of a store -/

/-- What is done with a store. -/
inductive StoreUse where
  | compile (r : Request)
  | clear

section Uses

variable {τ : Type}

/-- An action on the tree of files beside a clock. -/
def FileTree.besides {α : Type} (x : StateM FileTree α) : StateM (FileTree × τ) α := fun (t, now) =>
  ((x.run t).1, (x.run t).2, now)

/-- A host with a clock and a store in a tree of files. -/
def FileStore.host (s : FileStore) (clock : StateM τ Int) :
    CompileHost (StateM (FileTree × τ)) where
  now := fun (t, now) => ((clock.run now).1, t, (clock.run now).2)
  store := some
    { get := fun key => FileTree.besides (s.get FileTree.access key)
      put := fun key a => FileTree.besides (s.put FileTree.access key a) }

namespace StoreUse

/-- The requests among some uses. -/
def requests (uses : List StoreUse) : List Request :=
  uses.filterMap fun
    | compile r => some r
    | clear => none

/-- Uses a store. -/
def run (s : FileStore) (clock : StateM τ Int) : StoreUse → StateM (FileTree × τ) Unit
  | compile r => do let _ ← r.compile (s.host clock)
  | clear => do let _ ← FileTree.besides (s.clear FileTree.access)

end StoreUse

/-- Nothing stands where the way to a file of the store may lead. -/
def FileStore.Empty (s : FileStore) (t : FileTree) : Prop :=
  ∀ key place, t.Leads [] (s.way t.cwd key) place → t.node? place = none

variable {s : FileStore} {cwd : Text} {rs : List Request} {clock : StateM τ Int}

theorem FileStore.Empty.holds {t : FileTree} (h : s.Empty t) (good : Digest → Artifacts → Prop) :
  s.Holds t.cwd good t
  := by
  refine ⟨rfl, ?_, ?_⟩
  · intro key place hleads target hlink
    rw [h key place hleads] at hlink
    cases hlink
  · intro key place content a hleads hfile
    rw [h key place hleads] at hfile
    cases hfile

/-- A host keeps a store of nothing but what requests have made. -/
theorem FileStore.keeps_host (s : FileStore) (clock : StateM τ Int) (cwd : Text)
    (hround : ∀ r ∈ rs, ∀ a, r.Makes a → a.RoundTrips) :
  (s.host clock).Keeps (fun w => s.Holds cwd (Request.Stored rs) w.1) (Request.Stored rs)
  := by
  have hstore : ∀ store ∈ (s.host clock).store, store =
      { get := fun key => FileTree.besides (s.get FileTree.access key)
        put := fun key a => FileTree.besides (s.put FileTree.access key a) } :=
    fun store h => (Option.some.inj h).symm
  refine ⟨fun w hw => hw, ?_, ?_, ?_⟩
  · intro store h key w hw
    rw [hstore store h]
    change s.Holds cwd _ ((s.get FileTree.access key).run w.1).2
    rw [(hw.get key).1]
    exact hw
  · intro store h key w a hw hfound
    rw [hstore store h] at hfound
    exact (hw.get key).2 a hfound
  · rintro store h key w a hw ⟨r, hr, hkey, b, hb, ha⟩
    rw [hstore store h]
    have hdrop : a.dropIndex = b.dropIndex := by
      obtain rfl | rfl := ha
      · rfl
      · exact b.dropIndex_dropIndex
    have hbytes : a.toBytes = b.toBytes := by
      obtain rfl | rfl := ha
      · rfl
      · exact b.toBytes_dropIndex
    apply s.preserves_put _ _ w.1 hw
    · exact ⟨r, hr, hkey, b, hb, .inr hdrop⟩
    · rw [Artifacts.RoundTrips, hbytes, hdrop]
      exact hround r hr b hb

/-- What a request makes may be stored under its key. -/
theorem Request.stored_made {r : Request} (hr : r ∈ rs) {p : Pipeline}
    (hp : Pipeline.advanceAll r.options (Pipeline.stages r.options)
      (.start r.options r.files r.file) = (p, none))
    (hreached : p.result.reached = some .cpu) :
  Stored rs (p.key r.options) (Pipeline.artifacts p.result)
  := by
  have hsource := (Pipeline.healthy_of_reached hp hreached).source
  refine ⟨r, hr, ?_, _, ⟨p, hp, hreached, rfl⟩, .inl rfl⟩
  rw [Pipeline.key, hsource, key]

/-- A request keeps the store, and is a run of all stages or tells what was stored. -/
theorem Request.tells_compile {r : Request} (hr : r ∈ rs)
    (hround : ∀ r ∈ rs, ∀ a, r.Makes a → a.RoundTrips) {w : FileTree × τ}
    (hw : s.Holds cwd (Stored rs) w.1) :
  let c := (r.compile (s.host clock)).run w
  s.Holds cwd (Stored rs) c.2.1
    ∧ (c.1.Tells r.options (Pipeline.advanceRun r.options (.start r.options r.files r.file)) ∨
      ∃ a, Stored rs r.key a
        ∧ c.1.Tells r.options ((Pipeline.start r.options r.files r.file).takeOver a, none))
  := by
  obtain ⟨hkept, ⟨htells, -⟩ | ⟨a, ha, -, -, htells, -⟩⟩ :=
    ThreeAddress.tells_compile (s.keeps_host clock cwd hround)
      (fun _ p hp hreached _ => stored_made hr hp hreached) r.tracer r.parent hw
  · exact ⟨hkept, .inl htells⟩
  · exact ⟨hkept, .inr ⟨a, ha, htells⟩⟩

/-- However a store is used, it holds only what requests have made. -/
theorem StoreUse.holds_forM {uses : List StoreUse} (huses : ∀ r ∈ requests uses, r ∈ rs)
    (hround : ∀ r ∈ rs, ∀ a, r.Makes a → a.RoundTrips) {w : FileTree × τ}
    (hw : s.Holds cwd (Request.Stored rs) w.1) :
  s.Holds cwd (Request.Stored rs) ((uses.forM (run s clock)).run w).2.1
  := by
  induction uses generalizing w with
  | nil => exact hw
  | cons use uses ih =>
      cases use with
      | clear =>
          apply ih huses
          exact s.preserves_clear w.1 hw
      | compile r =>
          obtain ⟨hr, huses⟩ := List.forall_mem_cons.mp huses
          apply ih huses
          exact (Request.tells_compile hr hround hw).1

/-- What is stored under the key of a request is what the request makes itself, if it goes that
far. -/
theorem Request.agrees_of_stored_of_wants {r : Request} (hapart : ∀ q ∈ rs, q.Apart r)
    {a : Artifacts} (ha : Stored rs r.key a)
    (hwants : ∀ x ∈ Pipeline.stages r.options, Pipeline.wants r.options x.1 = true)
    (hcancel : r.options.cancelled = false) :
  ∃ p, Pipeline.advanceAll r.options (Pipeline.stages r.options)
      (.start r.options r.files r.file) = (p, none)
    ∧ Pipeline.Healthy r.options r.file 6 p ∧ a.Agrees (Pipeline.artifacts p.result)
  := by
  obtain ⟨q, hq, hkey, b, hmakes, hab⟩ := ha
  obtain ⟨p, hp, rfl⟩ := hmakes.healthy
  obtain ⟨hcontent, hregisters⟩ := (hapart q hq).eq_of_key hkey
  have hstart := Pipeline.advanceAll_start_of_wants hcancel hwants r.files r.file
  rcases hall : Pipeline.advanceAll r.options (Pipeline.stages r.options)
    (.start r.options r.files r.file) with ⟨p', stop⟩
  rw [hall] at hstart
  -- The artifacts may come from another file, but with the same content: the source has a meaning,
  -- so no stage fails.
  obtain ⟨-, hbroken⟩ | ⟨rfl, hp'⟩ := hstart
  · obtain ⟨ss, hmeans⟩ := hp.means.of_content_eq hcontent.symm
    exact absurd hmeans (hbroken.faulty _ _ _)
  · refine ⟨p', rfl, hp', ?_⟩
    have hagrees : a.Agrees (Pipeline.artifacts p.result) := by
      obtain rfl | rfl := hab
      · exact .refl _
      · exact hp.agrees_dropIndex
    rw [hp.artifacts_eq hp' hcontent.symm hregisters.symm]
    exact ⟨hagrees.symbols, hagrees.program, hagrees.graph, hagrees.allocation, hagrees.machine⟩

/-- What is stored under the key of a request is what the request makes itself. -/
theorem Request.agrees_of_stored {r : Request} (hapart : ∀ q ∈ rs, q.Apart r) {a : Artifacts}
    (ha : Stored rs r.key a) (hlast : Pipeline.lastStage r.options = .cpu)
    (hcancel : r.options.cancelled = false) :
  ∃ p, Pipeline.advanceAll r.options (Pipeline.stages r.options)
      (.start r.options r.files r.file) = (p, none)
    ∧ Pipeline.Healthy r.options r.file 6 p ∧ a.Agrees (Pipeline.artifacts p.result)
  := agrees_of_stored_of_wants hapart ha (fun _ => Pipeline.wants_of_mem_stages hlast) hcancel

/-- After any use of a store that was empty, a compilation up to machine code tells the same with
the store and without. -/
theorem store_is_transparent {ρ : Type} (s : FileStore) (clock : StateM τ Int) (w : FileTree × τ)
    (uses : List StoreUse) (r : Request) (bare : CompileHost (StateM ρ)) (v : ρ)
    (hempty : s.Empty w.1)
    (hround : ∀ q ∈ r :: StoreUse.requests uses, ∀ a, q.Makes a → a.RoundTrips)
    (hapart : ∀ q ∈ StoreUse.requests uses, q.Apart r)
    (hbare : bare.store = none)
    (hlast : Pipeline.lastStage r.options = .cpu) (hrun : r.options.run = false)
    (hcancel : r.options.cancelled = false) :
  let w' := ((uses.forM (StoreUse.run s clock)).run w).2
  let c := ((r.compile (s.host clock)).run w').1
  let d := ((r.compile bare).run v).1
  c.error = d.error ∧ c.result.Agrees d.result
  := by
  intro w' c d
  let rs := r :: StoreUse.requests uses
  have hholds : s.Holds w.1.cwd (Request.Stored rs) w'.1 :=
    StoreUse.holds_forM (fun _ => List.mem_cons_of_mem r) hround (hempty.holds _)
  have hapart : ∀ q ∈ rs, q.Apart r :=
    List.forall_mem_cons.mpr ⟨⟨fun _ => rfl, fun _ => rfl⟩, hapart⟩
  have hd : d.Tells r.options _ := (tells_without_store hbare ..).1
  -- Either nothing was found and both compilations are runs of all stages, or what was found stands
  -- in for a run.
  obtain ⟨-, hc | ⟨a, ha, hc⟩⟩ := Request.tells_compile List.mem_cons_self hround hholds
  · exact ⟨hc.error.trans hd.error.symm, hc.agrees hd (.refl _) rfl rfl⟩
  · obtain ⟨p, hp, hhealthy, hagrees⟩ := Request.agrees_of_stored hapart ha hlast hcancel
    rw [Pipeline.advanceRun_of_run_eq_false hrun, hp] at hd
    obtain ⟨hartifacts, hreached, hbag⟩ := hhealthy.takeOver r.files hagrees
    exact ⟨hc.error.trans hd.error.symm, hc.agrees hd hartifacts hreached hbag⟩

end Uses

/-! ### A source that is compiled three times -/

/-- In a tree without files every store is empty. -/
theorem FileStore.empty_of_nil (s : FileStore) (cwd : Text) :
  s.Empty { cwd }
  := by
  have hnode : ∀ place n, FileTree.node? { cwd } place = some n → place = [] ∧ n = .directory := by
    intro place n h
    cases place with
    | nil => exact ⟨rfl, (Option.some.inj h).symm⟩
    | cons name names => cases h
  intro key place hleads
  cases hplace : FileTree.node? { cwd } place with
  | none => rfl
  | some n =>
      obtain ⟨names, hnames⟩ := s.way_eq cwd key
      have hlast := hleads.getLast? hnames (isName_fileName key)
        fun p _ target hlink => nomatch (hnode p _ hlink).2
      rw [(hnode place n hplace).1] at hlast
      cases hlast

/-- The artifacts of `undeclaredSum` with one register. -/
def undeclaredSumArtifacts : Artifacts where
  symbols := some []
  program := undeclaredSumCode
  graph := some (.build undeclaredSumCode)
  allocation := some (.ofProgram { count := 1 } (some (.build undeclaredSumCode)) undeclaredSumCode)
  machine := [{ op := .add, reg := "t0", left := "a", right := "b" }, { op := .print, reg := "t0" }]

/-- Asks for `undeclaredSum` with one register. -/
def requestUndeclaredSum (o : CompileOptions) : Request where
  options := { o with registers := { count := 1 } }
  file := undeclaredSum

/-- What is made of the content of `undeclaredSum` with one register, wherever it stands. -/
theorem artifacts_of_undeclaredSum {r : Request} {a : Artifacts} (h : r.Makes a)
    (hcontent : r.file.content = undeclaredSum.content)
    (hregisters : r.options.registers = { count := 1 }) :
  a = { undeclaredSumArtifacts with path := r.file.path }
  := by
  obtain ⟨p, hp, rfl⟩ := h.healthy
  obtain ⟨ss, hmeans⟩ := means_undeclaredSum.of_content_eq hcontent
  obtain ⟨-, hprogram, htable⟩ := hp.eq_of_means hmeans (by omega)
  have hsymbols : p.result.symbols = some [] := by
    rw [(hp.code (by omega)).2, htable]
  have hgraph := hp.graph (by omega)
  have hallocation : p.result.allocation = some _ := hp.allocation
  have hmachine := hp.machine (by omega)
  have hlower : (undeclaredSumCode.lower ({} : SymbolTable)).toOption
      = some undeclaredSumArtifacts.machine := by decide +kernel
  rw [hprogram, htable] at hmachine
  rw [hmachine] at hlower
  rw [hprogram] at hgraph
  rw [hprogram, hgraph, hregisters] at hallocation
  rw [Pipeline.artifacts, hp.source, hsymbols, hprogram, hgraph, hallocation,
    Option.some.inj hlower]
  rfl

theorem roundTrips_undeclaredSum {o : CompileOptions} {a : Artifacts}
    (h : (requestUndeclaredSum o).Makes a) :
  a.RoundTrips
  := by
  have hartifacts : a = undeclaredSumArtifacts := artifacts_of_undeclaredSum h rfl rfl
  rw [hartifacts]
  decide +kernel

theorem store_is_transparent_undeclaredSum :
  let s : FileStore := { dir := "/store" }
  let clock : StateM Int Int := fun now => (now, now + 1)
  let uses : List StoreUse :=
    [.compile (requestUndeclaredSum { maxDiagnostics := 1 }), .clear,
      .compile (requestUndeclaredSum { run := true })]
  let r := requestUndeclaredSum { maxDiagnostics := 2, timings := true }
  let w := ((uses.forM (StoreUse.run s clock)).run ({}, 0)).2
  let c := ((r.compile (s.host clock)).run w).1
  let d := ((r.compile stillHost).run ()).1
  c.error = d.error ∧ c.result.Agrees d.result
  := by
  intro s clock uses r
  apply store_is_transparent s clock ({}, 0) uses r stillHost ()
  · exact s.empty_of_nil _
  · intro q hq a ha
    simp only [uses, StoreUse.requests, List.filterMap_cons, List.filterMap_nil, List.mem_cons,
      List.not_mem_nil, or_false] at hq
    obtain rfl | rfl | rfl := hq
    all_goals exact roundTrips_undeclaredSum ha
  · intro q hq
    simp only [uses, StoreUse.requests, List.filterMap_cons, List.filterMap_nil, List.mem_cons,
      List.not_mem_nil, or_false] at hq
    obtain rfl | rfl := hq
    all_goals exact ⟨fun _ => rfl, fun _ => rfl⟩
  · rfl
  · rfl
  · rfl
  · rfl

end ThreeAddress
