import ThreeAddress.Proofs.Code.WellFormed

/-!
# Jumps stay inside their functions

`Program.functionsAt p n` lists the starts of the functions around place `n` of `p`, the innermost
first.  In generated code a jump and the label that it names have the same functions around them: no
control flow enters or leaves the body of a function by a jump.  The labels of a statement are
numbered before the code that they stand in is made, and functions may be declared inside branches
and loops; so the fact is one about fragments, which hold the labels of all their own jumps.
-/

namespace ThreeAddress

/-- The functions that are open after the instruction at `place`, given by their starts, the
innermost first, where `outer` are those open before it. -/
def Instr.functionsAfter (outer : List Nat) (place : Nat) (i : Instr) : List Nat :=
  match i.kind with
  | .functionStart => place :: outer
  | .functionEnd => outer.tail
  | _ => outer

theorem Instr.functionsAfter_of_ne {i : Instr} (hstart : i.kind ≠ .functionStart)
    (hend : i.kind ≠ .functionEnd) (outer : List Nat) (place : Nat) :
  i.functionsAfter outer place = outer
  := by
  rw [functionsAfter]
  split
  · next hkind => cases hstart hkind
  · next hkind => cases hend hkind
  · rfl

namespace Program

/-- The instructions from `place` on, each with the functions around it, where `outer` are those
around the first one. -/
def enclosed (outer : List Nat) (place : Nat) : Program → List (List Nat × Instr)
  | [] => []
  | i :: rest => (outer, i) :: enclosed (i.functionsAfter outer place) (place + 1) rest

/-- The places of the starts of the functions around place `n`, the innermost first; nothing beyond
the end of the program. -/
def functionsAt (p : Program) (n : Nat) : Option (List Nat) := ((p.enclosed [] 0)[n]?).map Prod.fst

variable {c c' : Program} {i : Instr}

theorem map_snd_enclosed (outer : List Nat) (place : Nat) (c : Program) :
  (enclosed outer place c).map Prod.snd = c
  := by
  induction c generalizing outer place with
  | nil => rfl
  | cons i c ih => rw [enclosed, List.map_cons, ih]

/-- After code that leaves `k` functions open, these are open around what follows. -/
theorem exists_enclosed_append (front base : List Nat) (place : Nat) {k : Nat}
    (h : c.depthAfter? front.length = some k) :
  ∃ front', front'.length = k ∧ ∀ rest,
    enclosed (front ++ base) place (c ++ rest)
      = enclosed (front ++ base) place c ++ enclosed (front' ++ base) (place + c.length) rest
  := by
  induction c generalizing front place with
  | nil =>
      cases h
      exact ⟨front, rfl, fun _ => rfl⟩
  | cons i c ih =>
      have hstep : ∃ next : List Nat, depthAfter? next.length c = some k
          ∧ i.functionsAfter (front ++ base) place = next ++ base := by
        rw [depthAfter?] at h
        split at h
        · next hkind =>
          rw [Instr.functionsAfter, hkind]
          exact ⟨place :: front, h, rfl⟩
        · next hkind =>
          rw [Instr.functionsAfter, hkind]
          cases front with
          | nil => cases h
          | cons start front => exact ⟨front, h, rfl⟩
        · next hstart hend => exact ⟨front, h, Instr.functionsAfter_of_ne hstart hend ..⟩
      obtain ⟨next, hdepth, hnext⟩ := hstep
      obtain ⟨front', hk, happend⟩ := ih next (place + 1) hdepth
      use front', hk
      intro rest
      rw [List.cons_append, enclosed, enclosed, hnext, happend, List.cons_append, List.length_cons,
        Nat.add_right_comm, Nat.add_assoc]

/-- After code whose functions are bracketed the same functions are open as before it. -/
theorem Balanced.enclosed_append (h : c.Balanced) (outer : List Nat) (place : Nat)
    (rest : Program) :
  enclosed outer place (c ++ rest)
    = enclosed outer place c ++ enclosed outer (place + c.length) rest
  := by
  obtain ⟨front, hfront, happend⟩ := exists_enclosed_append [] outer place (h 0)
  obtain rfl := List.eq_nil_of_length_eq_zero hfront
  apply happend

/-- Every jump of the code names a label of the code with the same functions around it, whichever
functions are around the code. -/
def JumpsStay (c : Program) : Prop :=
  ∀ outer place, ∀ e ∈ enclosed outer place c, e.2.kind.isJump →
    ∃ e' ∈ enclosed outer place c, e'.1 = e.1 ∧ e'.2.kind = .label ∧ e'.2.label = e.2.label

theorem jumpsStay_of_forall (h : ∀ i ∈ c, i.kind.isJump = false) :
  c.JumpsStay
  := by
  intro outer place e he hjump
  have hmem : e.2 ∈ c := by
    rw [← map_snd_enclosed outer place c]
    apply List.mem_map_of_mem he
  rw [h e.2 hmem] at hjump
  cases hjump

theorem JumpsStay.append (hbalanced : c.Balanced) (h : c.JumpsStay) (h' : c'.JumpsStay) :
  JumpsStay (c ++ c')
  := by
  intro outer place e he hjump
  rw [hbalanced.enclosed_append] at he ⊢
  obtain he | he := List.mem_append.mp he
  · obtain ⟨e', he', hlabel⟩ := h outer place e he hjump
    exact ⟨e', List.mem_append_left _ he', hlabel⟩
  · obtain ⟨e', he', hlabel⟩ := h' outer _ e he hjump
    exact ⟨e', List.mem_append_right _ he', hlabel⟩

theorem JumpsStay.function {j : Instr} (hi : i.kind = .functionStart) (hj : j.kind = .functionEnd)
    (hbalanced : c.Balanced) (h : c.JumpsStay) :
  JumpsStay (i :: (c ++ [j]))
  := by
  intro outer place e he hjump
  have hafter : i.functionsAfter outer place = place :: outer := by rw [Instr.functionsAfter, hi]
  rw [enclosed, hafter, hbalanced.enclosed_append] at he ⊢
  rw [List.mem_cons, List.mem_append] at he
  obtain rfl | he | he := he
  · rw [hi] at hjump
    cases hjump
  · obtain ⟨e', he', hlabel⟩ := h _ _ e he hjump
    exact ⟨e', List.mem_cons_of_mem _ (List.mem_append_left _ he'), hlabel⟩
  · obtain rfl := List.mem_singleton.mp he
    rw [hj] at hjump
    cases hjump

/-- A jump whose label stands somewhere has the functions of that label around it. -/
theorem JumpsStay.functionsAt_eq {p : Program} (h : p.JumpsStay) (hlabels : p.labelNames.Nodup)
    {n m : Nat} (hn : p[n]? = some i) (hjump : i.kind.isJump) (hm : p.LabelAt i.label m) :
  p.functionsAt n = p.functionsAt m
  := by
  have hinstr : ∀ k : Nat, ((p.enclosed [] 0)[k]?).map Prod.snd = p[k]? := by
    intro k
    rw [← List.getElem?_map, map_snd_enclosed]
  obtain ⟨e, he, rfl⟩ := Option.map_eq_some_iff.mp ((hinstr n).trans hn)
  obtain ⟨e', he', houter, hkind, hlabel⟩ := h [] 0 e (List.mem_of_getElem? he) hjump
  obtain ⟨k, hk⟩ := List.mem_iff_getElem?.mp he'
  have hplace : p.LabelAt e.2.label k := by
    refine ⟨e'.2, ?_, hkind, hlabel⟩
    rw [← hinstr k, hk, Option.map_some]
  obtain rfl := hplace.unique hlabels hm
  rw [functionsAt, functionsAt, he, hk, Option.map_some, Option.map_some, houter]

end Program

/-! ### Generated code -/

variable {k l k' l' : Nat} {es : List Expr} {xs : List Operand} {ss : List Stmt} {c : Program}

theorem Computes.jumpsStay (h : Computes k es xs c k') :
  c.JumpsStay
  := by
  apply Program.jumpsStay_of_forall
  intro i hi
  have hkind := (h.made i hi).1
  rw [Instr.isComputation] at hkind
  split at hkind
  · next hbinary => rw [hbinary]; rfl
  · next hunary => rw [hunary]; rfl
  · next hcall => rw [hcall]; rfl
  · cases hkind

/-- Code that carries out statements holds the labels of its jumps. -/
theorem Performs.jumpsStay (h : Performs k l ss c k' l') :
  c.JumpsStay
  := by
  induction h with
  | nil => exact Program.jumpsStay_of_forall (by simp)
  | cons h _ ih ih' => exact ih.append h.balanced ih'
  | letVar hc | assign hc | retValue hc | print hc =>
      exact hc.jumpsStay.append hc.balanced (Program.jumpsStay_of_forall (by simp [InstrKind.isJump]))
  | ret => exact Program.jumpsStay_of_forall (by simp [InstrKind.isJump])
  | expr hc => exact hc.jumpsStay
  | function h ih => exact ih.function rfl rfl h.balanced
  | @ifElse k l _ _ _ _ _ _ _ _ _ _ _ c c₁ c₂ hc h h' ih ih' =>
      apply hc.jumpsStay.append hc.balanced
      intro outer place e he hjump
      simp only [Program.enclosed, h.balanced.enclosed_append, h'.balanced.enclosed_append,
        Instr.functionsAfter, List.mem_cons, List.mem_append, List.not_mem_nil, or_false] at he ⊢
      obtain rfl | he | rfl | rfl | he | rfl := he
      · exact ⟨_, .inr (.inr (.inr (.inl rfl))), rfl, rfl, rfl⟩
      · obtain ⟨e', he', hlabel⟩ := ih _ _ e he hjump
        exact ⟨e', .inr (.inl he'), hlabel⟩
      · exact ⟨_, .inr (.inr (.inr (.inr (.inr rfl)))), rfl, rfl, rfl⟩
      · cases hjump
      · obtain ⟨e', he', hlabel⟩ := ih' _ _ e he hjump
        exact ⟨e', .inr (.inr (.inr (.inr (.inl he')))), hlabel⟩
      · cases hjump
  | «while» hc h ih =>
      intro outer place e he hjump
      simp only [Program.enclosed, hc.balanced.enclosed_append, h.balanced.enclosed_append,
        Instr.functionsAfter, List.mem_cons, List.mem_append, List.not_mem_nil, or_false] at he ⊢
      obtain rfl | he | rfl | he | rfl | rfl := he
      · cases hjump
      · obtain ⟨e', he', hlabel⟩ := hc.jumpsStay _ _ e he hjump
        exact ⟨e', .inr (.inl he'), hlabel⟩
      · exact ⟨_, .inr (.inr (.inr (.inr (.inr rfl)))), rfl, rfl, rfl⟩
      · obtain ⟨e', he', hlabel⟩ := ih _ _ e he hjump
        exact ⟨e', .inr (.inr (.inr (.inl he'))), hlabel⟩
      · exact ⟨_, .inl rfl, rfl, rfl, rfl⟩
      · cases hjump

/-- The control flow of generated code is closed and local to functions: the labels are those of the
first numbers, each once; every jump names one of them; functions are bracketed; a jump and its
label have the same functions around them; and the check of the code finds nothing. -/
theorem generated_jumps_stay_in_functions {program : List Stmt} {table table' : SymbolTable}
    {p : Program} (h : generate program table = (.ok p, table')) :
  p.labelNames.Perm ((List.range p.labelNames.length).map numberedLabel)
    ∧ (∀ i ∈ p, i.kind.isJump → i.label ∈ p.labelNames)
    ∧ p.Balanced
    ∧ (∀ n m i, p[n]? = some i → i.kind.isJump → p.LabelAt i.label m →
        p.functionsAt n = p.functionsAt m)
    ∧ p.check? = none
  := by
  have hwell := wellFormed_of_generate h
  obtain ⟨k, l, hp⟩ := performs_of_generate h
  refine ⟨labelNames_perm_of_generate h, ?_, hwell.balanced, ?_, hwell.check?_eq_none⟩
  · intro i hi hjump
    exact ((hwell.complete i hi).label hjump).1
  · intro n m i hn hjump hm
    exact hp.jumpsStay.functionsAt_eq hwell.labels hn hjump hm

/-! ### A function with a branch, declared in a loop -/

def functionInLoop : List Stmt :=
  [.while {} (.ident {} "c")
    [.function {} "f" {} [] [.ifElse {} (.ident {} "x") [.ret {} none] [] false]]]

def functionInLoopCode : Program :=
  [{ kind := .label, label := "L0" },
   { kind := .jumpIfFalse, cond := .var "c", label := "L1" },
   { kind := .functionStart, func := "f" },
   { kind := .jumpIfFalse, cond := .var "x", label := "L2" },
   { kind := .ret },
   { kind := .jump, label := "L3" },
   { kind := .label, label := "L2" },
   { kind := .label, label := "L3" },
   { kind := .functionEnd },
   { kind := .jump, label := "L0" },
   { kind := .label, label := "L1" }]

theorem functionInLoop_jumps_stay :
  ∃ table, generate functionInLoop {} = (.ok functionInLoopCode, table)
    ∧ functionInLoopCode.functionsAt 5 = some [2]
    ∧ functionInLoopCode.functionsAt 5 = functionInLoopCode.functionsAt 7
    ∧ functionInLoopCode.functionsAt 9 = some []
    ∧ functionInLoopCode.functionsAt 9 = functionInLoopCode.functionsAt 0
    ∧ functionInLoopCode.check? = none
  := by
  have hcode : generate functionInLoop {}
      = (.ok functionInLoopCode, (generate functionInLoop {}).2) := by
    apply Prod.ext
    · decide +kernel
    · rfl
  obtain ⟨-, -, -, hstay, hcheck⟩ := generated_jumps_stay_in_functions hcode
  refine ⟨_, hcode, by decide +kernel, ?_, by decide +kernel, ?_, hcheck⟩
  · exact hstay 5 7 _ rfl rfl ⟨_, rfl, rfl, rfl⟩
  · exact hstay 9 0 _ rfl rfl ⟨_, rfl, rfl, rfl⟩

end ThreeAddress
