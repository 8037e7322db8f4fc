import ThreeAddress.Proofs.Register.Interference
import ThreeAddress.Proofs.Text.Numeral
import ThreeAddress.Register.Allocation

/-!
# Registers of variables that are live together

The colouring of the interference graph never gives one colour to two neighbours, whatever the order
in which the variables are placed.  So two variables are kept apart exactly if their occurrences are
not separated, that is, if not all occurrences of one come before all occurrences of the other.

Variables that are live together can be separated, since the range of a variable reaches only from
its first to its last occurrence in the text of the program.  This misses two ways to be live: a
variable that is read before it is written is live before its first occurrence, and a variable that
a loop reads in its next round is live after its last one.  In generated code there is no other way.
-/

namespace ThreeAddress

namespace Interference

/-! ### The colouring is proper -/

/-- No two variables that an edge joins have the same colour. -/
def Proper (g : Interference) : Prop :=
  ∀ a b c, a ≠ b → ⟨a, b⟩ ∈ g.edges → g.colours.get? a = some c → g.colours.get? b ≠ some c

variable {g : Interference} {file : List Text}

/-- A property that every placement keeps is kept by the placement of a whole work list. -/
theorem colourFrom_induction {P : Interference → Prop}
    (hstep : ∀ g name, P g → P (g.place file name).1) (h : P g) (index : Nat) (work : List Text) :
  P (g.colourFrom file index work).1
  := by
  fun_induction colourFrom g file index work with
  | case1 g index => apply h
  | case2 g index first rest name g' placement hplace g'' steps htail ih =>
      rw [htail] at ih
      apply ih
      have hg' := hstep g name h
      rw [hplace] at hg'
      apply hg'

/-- The graph `g` has the edges `es`, an index of them, and a proper colouring. -/
structure Coloured (es : List Conflict) (g : Interference) : Prop where
  edges : g.edges = es
  indexed : g.Indexed
  proper : g.Proper

/-- Placing a variable keeps the colouring proper, if the edges go both ways. -/
theorem Coloured.place {es : List Conflict} (hsymm : ∀ a b, ⟨a, b⟩ ∈ es → ⟨b, a⟩ ∈ es)
    (h : g.Coloured es) (file : List Text) (name : Text) :
  ((g.place file name).1).Coloured es
  := by
  rw [Interference.place]
  split
  · next c hfree =>
    refine ⟨h.edges, h.indexed, ?_⟩
    have hunused : ∀ b, ⟨name, b⟩ ∈ g.edges → g.colours.get? b ≠ some c := by
      intro b hb hcolour
      have hmem := List.find?_some hfree
      simp only [Bool.not_eq_true', List.contains_eq_mem, decide_eq_false_iff_not,
        List.mem_filterMap, not_exists, not_and] at hmem
      apply hmem b ((h.indexed.2 name b).mpr hb) hcolour
    intro a b d hne hedge ha hb
    change ⟨a, b⟩ ∈ g.edges at hedge
    rw [paint] at ha hb
    dsimp only at ha hb
    rw [Dict.get?_insert] at ha hb
    split at ha
    · next heq =>
      subst heq
      rw [if_neg hne] at hb
      rw [Option.some.inj ha] at hunused
      apply hunused b hedge hb
    · split at hb
      · next heq =>
        subst heq
        rw [Option.some.inj hb] at hunused
        rw [h.edges] at hedge hunused
        apply hunused a (hsymm a name hedge) ha
      · apply h.proper a b d hne hedge ha hb
  · apply h

/-- The colouring of the graph of a list of ranges is proper and keeps the edges. -/
theorem coloured_colour (rs : List LiveRange) (file : List Text) :
  ((ofRanges rs).colour file).1.Coloured (ofRanges rs).edges
  := by
  apply colourFrom_induction
  · intro g name h
    apply h.place
    intro a b hab
    apply mem_edges_ofRanges_comm.mp hab
  · refine ⟨rfl, indexed_ofRanges rs, ?_⟩
    intro a b c _ _ ha
    rw [colours_ofRanges] at ha
    cases ha

end Interference

/-! ### Registers -/

/-- The registers of a register file have different names. -/
theorem RegisterFile.names_nodup (f : RegisterFile) :
  f.names.Nodup
  := by
  apply List.Nodup.map _ List.nodup_range
  intro m n
  apply Text.append_ofNat_injective

namespace Allocation

variable {file : RegisterFile} {blocks : Option Graph} {p : Program} {u v : Text}

theorem graph_edges (file : RegisterFile) (blocks : Option Graph) (p : Program) :
  (ofProgram file blocks p).graph.edges = (Interference.ofRanges p.liveRanges).edges
  := (Interference.coloured_colour p.liveRanges file.names).edges

theorem graph_coloured (file : RegisterFile) (blocks : Option Graph) (p : Program) :
  (ofProgram file blocks p).graph.Coloured (ofProgram file blocks p).graph.edges
  := by
  rw [graph_edges]
  apply Interference.coloured_colour

/-- The register of a variable is the one of its colour. -/
theorem register_eq {register : Text}
    (h : (ofProgram file blocks p).registers.get? u = some register) :
  ∃ c, (ofProgram file blocks p).graph.colours.get? u = some c ∧ file.names[c]? = some register
  := by
  obtain ⟨name, -, heq⟩ := List.mem_filterMap.mp (Dict.mem_of_get?_ofList h)
  obtain ⟨r, hr, heq⟩ := Option.map_eq_some_iff.mp heq
  obtain ⟨rfl, rfl⟩ := Prod.mk.inj heq
  obtain ⟨c, hc, hr⟩ := Option.bind_eq_some_iff.mp hr
  use c, hc, hr

/-- Variables that interfere never get the same register. -/
theorem register_ne_of_edge (huv : u ≠ v) (h : ⟨u, v⟩ ∈ (ofProgram file blocks p).graph.edges)
    {register : Text} (hu : (ofProgram file blocks p).registers.get? u = some register) :
  (ofProgram file blocks p).registers.get? v ≠ some register
  := by
  intro hv
  obtain ⟨c, hc, hcr⟩ := register_eq hu
  obtain ⟨d, hd, hdr⟩ := register_eq hv
  have hlt := (List.getElem?_eq_some_iff.mp hcr).1
  obtain rfl : c = d :=
    (List.getElem?_inj hlt (RegisterFile.names_nodup file)).mp (hcr.trans hdr.symm)
  apply (graph_coloured file blocks p).proper u v c huv h hc hd

/-- The allocation keeps two variables apart: the graph has edges between them, both of them know of
the other, and they never have the same register. -/
structure KeepsApart (a : Allocation) (u v : Text) : Prop where
  edges : ⟨u, v⟩ ∈ a.graph.edges ∧ ⟨v, u⟩ ∈ a.graph.edges
  interferes : a.graph.interferes u v ∧ a.graph.interferes v u
  registers : ∀ register, a.registers.get? u = some register → a.registers.get? v ≠ some register

/-- An edge between two variables keeps them apart. -/
theorem keepsApart_of_edge (huv : u ≠ v) (h : ⟨u, v⟩ ∈ (ofProgram file blocks p).graph.edges) :
  (ofProgram file blocks p).KeepsApart u v
  := by
  have h' : ⟨v, u⟩ ∈ (ofProgram file blocks p).graph.edges := by
    rw [graph_edges] at h ⊢
    apply Interference.mem_edges_ofRanges_comm.mp h
  have hindexed := (graph_coloured file blocks p).indexed
  refine ⟨⟨h, h'⟩, ⟨?_, ?_⟩, fun _ => register_ne_of_edge huv h⟩
  · simp [Interference.interferes, hindexed.2, h]
  · simp [Interference.interferes, hindexed.2, h']

/-- Two variables are kept apart exactly if their occurrences are not separated. -/
theorem keepsApart_iff (file : RegisterFile) (blocks : Option Graph) (huv : u ≠ v) :
  (ofProgram file blocks p).KeepsApart u v ↔ ¬ p.Separated u v
  := by
  rw [← Interference.mem_edges_ofProgram huv, ← graph_edges file blocks]
  constructor
  · intro h
    apply h.edges.1
  · intro h
    apply keepsApart_of_edge huv h

end Allocation

/-! ### Variables that are live together -/

namespace Program

/-- The variable `v` is live at the start and does not occur before place `n`: it may be read before
it is written. -/
def Unwritten (p : Program) (v : Text) (n : Nat) : Prop :=
  p.LiveIn v 0 ∧ ∀ m, m < n → ¬ p.Occurs v m

/-- The variable `v` does not occur from place `n` on and is live at an earlier place `s`, to which
a jump leads back from `n` or a later place `e`: the next round of a loop reads it. -/
def CarriedBack (p : Program) (v : Text) (n : Nat) : Prop :=
  (∀ m, n ≤ m → ¬ p.Occurs v m)
    ∧ ∃ s e i, s < n ∧ n ≤ e ∧ p[e]? = some i ∧ i.kind.isJump ∧ p.labelIndex? i.label = some s
      ∧ p.LiveIn v s

/-- A variable that is live at a place of generated code occurs before it, unless it may be read
before it is written. -/
theorem LiveIn.occurs_before {p : Program} {k l : Nat} {ss : List Stmt}
    (hp : Performs 0 0 ss p k l) {v : Text} {n : Nat} (hlive : p.LiveIn v n) :
  p.Unwritten v n ∨ ∃ m, m < n ∧ p.Occurs v m
  := by
  by_contra h
  push Not at h
  obtain ⟨hunwritten, h⟩ := h
  obtain ⟨i, hi, -⟩ := liveIn_iff.mp hlive
  have hlt := (List.getElem?_eq_some_iff.mp hi).1
  have hspans := hp.spans hp.labelNames_nodup p.holdsAt_self
  have hforward := hspans n (by omega) (by omega)
  rw [Nat.zero_add] at hforward
  apply hunwritten
  use LiveIn.of_forward hforward hlive h

/-- A variable that is live at a place occurs there or later, unless a loop carries it back. -/
theorem LiveIn.occurs_after {p : Program} {v : Text} {n : Nat} (hlive : p.LiveIn v n) :
  p.CarriedBack v n ∨ ∃ m, n ≤ m ∧ p.Occurs v m
  := by
  by_contra h
  push Not at h
  obtain ⟨hback, h⟩ := h
  apply hback
  use h
  apply hlive.exists_jump_back (Nat.le_refl n) h

/-- If all occurrences of `u` come before those of `v` and both are live, then `u` is carried back
or `v` may be read before it is written. -/
theorem carriedBack_or_unwritten {p : Program} {k l : Nat} {ss : List Stmt}
    (hp : Performs 0 0 ss p k l) {u v : Text} {n : Nat} (hu : p.LiveIn u n) (hv : p.LiveIn v n)
    (hbefore : ∀ m m', p.Occurs u m → p.Occurs v m' → m < m') :
  p.CarriedBack u n ∨ p.Unwritten v n
  := by
  obtain hback | ⟨m, hm, hoccurs⟩ := hu.occurs_after
  · exact .inl hback
  · obtain hunwritten | ⟨m', hm', hoccurs'⟩ := hv.occurs_before hp
    · exact .inr hunwritten
    · have := hbefore m m' hoccurs hoccurs'
      omega

end Program

/-- Two variables that are live together in generated code are kept apart by an allocation exactly
if their occurrences are not separated; they are separated only if, at a place where both are live,
one of them may be read before it is written or is carried back by a loop. -/
theorem live_together_kept_apart {program : List Stmt} {table table' : SymbolTable} {p : Program}
    (hp : generate program table = (.ok p, table')) (file : RegisterFile) (blocks : Option Graph)
    {u v : Text} (huv : u ≠ v) {n : Nat} (h : p.LiveTogether u v n) :
  ((Allocation.ofProgram file blocks p).KeepsApart u v ↔ ¬ p.Separated u v)
    ∧ (p.Separated u v → ∃ m, p.LiveIn u m ∧ p.LiveIn v m
      ∧ (p.CarriedBack u m ∨ p.Unwritten v m ∨ p.CarriedBack v m ∨ p.Unwritten u m))
  := by
  use Allocation.keepsApart_iff file blocks huv
  obtain ⟨k, l, hperforms⟩ := performs_of_generate hp
  obtain ⟨m, hu, hv⟩ := h.exists_liveIn
  intro hseparated
  use m, hu, hv
  obtain hbefore | hafter := hseparated
  · obtain h | h := Program.carriedBack_or_unwritten hperforms hu hv hbefore
    · exact .inl h
    · exact .inr (.inl h)
  · have hbefore : ∀ m m', p.Occurs v m → p.Occurs u m' → m < m' :=
      fun m m' hm hm' => hafter m' m hm' hm
    obtain h | h := Program.carriedBack_or_unwritten hperforms hv hu hbefore
    · exact .inr (.inr (.inl h))
    · exact .inr (.inr (.inr h))

/-- Two variables that are written and then read. -/
def twoReads : List Stmt :=
  [.letVar {} "u" {} (.literal {} .number "1"), .letVar {} "v" {} (.literal {} .number "2"),
   .print {} (.ident {} "u"), .print {} (.ident {} "v")]

def twoReadsCode : Program :=
  [{ kind := .assign, target := .var "u", source := .literal .number "1" },
   { kind := .assign, target := .var "v", source := .literal .number "2" },
   { kind := .print, source := .var "u" }, { kind := .print, source := .var "v" }]

theorem twoReads_kept_apart :
  (∃ table, generate twoReads {} = (.ok twoReadsCode, table))
    ∧ twoReadsCode.LiveTogether "u" "v" 2
    ∧ (Allocation.ofProgram {} none twoReadsCode).KeepsApart "u" "v"
  := by
  have hcode : generate twoReads {} = (.ok twoReadsCode, (generate twoReads {}).2) := by
    apply Prod.ext
    · decide +kernel
    · rfl
  have hu : twoReadsCode.LiveIn "u" 2 := .read rfl (by decide)
  have hv : twoReadsCode.LiveIn "v" 2 :=
    .pass rfl (by decide) (Graph.follows_next rfl (by decide) (by decide)) (.read rfl (by decide))
  have htogether : twoReadsCode.LiveTogether "u" "v" 2 := .inl ⟨hu, hv⟩
  refine ⟨⟨_, hcode⟩, htogether, ?_⟩
  apply (live_together_kept_apart hcode {} none (by decide) htogether).1.mpr
  have hu₀ : twoReadsCode.Occurs "u" 0 := ⟨_, rfl, by decide⟩
  have hu₂ : twoReadsCode.Occurs "u" 2 := ⟨_, rfl, by decide⟩
  have hv₁ : twoReadsCode.Occurs "v" 1 := ⟨_, rfl, by decide⟩
  rintro (hbefore | hafter)
  · cases Nat.lt_asymm (hbefore 2 1 hu₂ hv₁) (by decide)
  · cases Nat.lt_asymm (hafter 0 1 hu₀ hv₁) (by decide)

/-- A loop that reads `u` before it writes and reads `v`, in every round. -/
def sharingLoop : List Stmt :=
  [.letVar {} "u" {} (.literal {} .number "1"), .letVar {} "c" {} (.literal {} .boolean "true"),
   .while {} (.ident {} "c")
    [.print {} (.ident {} "u"), .letVar {} "v" {} (.literal {} .number "2"),
     .print {} (.ident {} "v")]]

def sharingLoopCode : Program :=
  [{ kind := .assign, target := .var "u", source := .literal .number "1" },
   { kind := .assign, target := .var "c", source := .literal .boolean "true" },
   { kind := .label, label := "L0" },
   { kind := .jumpIfFalse, cond := .var "c", label := "L1" },
   { kind := .print, source := .var "u" },
   { kind := .assign, target := .var "v", source := .literal .number "2" },
   { kind := .print, source := .var "v" },
   { kind := .jump, label := "L0" },
   { kind := .label, label := "L1" }]

/-- Before the second print of the loop both `u` and `v` are live, but they have no edge and share a
register. -/
theorem sharingLoop_shares_register :
  (∃ table, generate sharingLoop {} = (.ok sharingLoopCode, table))
    ∧ sharingLoopCode.LiveTogether "u" "v" 6
    ∧ ⟨"u", "v"⟩ ∉ (Allocation.ofProgram {} none sharingLoopCode).graph.edges
    ∧ (Allocation.ofProgram {} none sharingLoopCode).registers.get? "u" = some "r0"
    ∧ (Allocation.ofProgram {} none sharingLoopCode).registers.get? "v" = some "r0"
  := by
  have hcode : generate sharingLoop {} = (.ok sharingLoopCode, (generate sharingLoop {}).2) := by
    apply Prod.ext
    · decide +kernel
    · rfl
  have hread : sharingLoopCode.LiveIn "u" 4 := .read rfl (by decide)
  have htest : sharingLoopCode.LiveIn "u" 3 :=
    .pass rfl (by decide) (Graph.follows_next rfl (by decide) (by decide)) hread
  have hstart : sharingLoopCode.LiveIn "u" 2 :=
    .pass rfl (by decide) (Graph.follows_next rfl (by decide) (by decide)) htest
  have hback : sharingLoopCode.LiveIn "u" 7 :=
    .pass rfl (by decide) (Graph.follows_label rfl rfl (by decide)) hstart
  have hprint : sharingLoopCode.LiveIn "u" 6 :=
    .pass rfl (by decide) (Graph.follows_next rfl (by decide) (by decide)) hback
  refine ⟨⟨_, hcode⟩, .inl ⟨hprint, .read rfl (by decide)⟩, ?_, ?_, ?_⟩
  · decide +kernel
  · decide +kernel
  · decide +kernel

end ThreeAddress
