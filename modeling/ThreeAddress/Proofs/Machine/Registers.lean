import Mathlib.Data.List.Nodup
import ThreeAddress.Proofs.Machine.Layout

/-!
# The registers of operands

Literals, and variables of the symbol table, are loaded into numbered registers, and no two of them
into the same one.  Temporaries, and variables that the table does not know, serve as registers
under their own names.  So two operands of generated code share a register only if one of them is a
variable that the table does not know and that bears the name of the other's register.
-/

namespace ThreeAddress

/-- The register of number `n`. -/
def registerName (n : Nat) : Text := "r" ++ Text.ofNat n

theorem registerName_injective :
  Function.Injective registerName
  := fun _ _ => Text.append_ofNat_injective "r"

/-- No temporary has the name of a numbered register. -/
theorem registerName_ne_ofTemp (n k : Nat) :
  registerName n ≠ (Operand.ofTemp k).text
  := by
  intro h
  have hhead : (some 114 : Option UInt8) = some 116 := congrArg List.head? h
  cases hhead

/-- No number has the name of a numbered register. -/
theorem registerName_ne_ofNat (n k : Nat) :
  registerName n ≠ Text.ofNat k
  := by
  intro h
  have hmem : (114 : UInt8) ∈ Text.ofNat k := by
    rw [← h]
    apply List.mem_cons_self
  have := Text.mem_ofNat hmem
  simp at this

/-- The table has an address for a variable. -/
def Knows (table : Option SymbolTable) (name : Text) : Prop :=
  (table.bind fun t => (t.addressOf name).toOption).isSome

instance (table : Option SymbolTable) (name : Text) : Decidable (Knows table name) :=
  inferInstanceAs (Decidable (_ = true))

/-- The operand is loaded into a numbered register. -/
def Operand.IsLoaded (table : Option SymbolTable) (o : Operand) : Prop :=
  o.kind = .literal ∨ o.kind = .var ∧ Knows table o.text

namespace Lowering

variable {table : Option SymbolTable} {s : Lowering} {o o' : Operand}

/-- The registers that were given to operands are numbered in turn, and only operands that are
loaded have one. -/
structure Numbered (table : Option SymbolTable) (s : Lowering) : Prop where
  names : ∀ entry ∈ s.registers, ∃ n, n < s.count ∧ entry.2 = registerName n
  distinct : (s.registers.map (·.2)).Nodup
  loaded : ∀ entry ∈ s.registers, entry.1.1 = .literal ∨ entry.1.1 = .var ∧ Knows table entry.1.2

theorem numbered_empty :
  Numbered table {}
  := ⟨by simp, List.nodup_nil, by simp⟩

theorem isLoaded_of_loadValue? {v : Text} (h : s.loadValue? table o = some v) :
  o.IsLoaded table
  := by
  rw [loadValue?] at h
  split at h
  · cases h
  · split at h
    · left
      assumption
    · right
      rename_i hkind
      use hkind
      obtain ⟨address, haddress, -⟩ := Option.map_eq_some_iff.mp h
      rw [Knows, haddress]
      rfl
    · cases h

theorem Numbered.load (h : s.Numbered table) {v : Text} (hv : s.loadValue? table o = some v) :
  (s.load o v).1.Numbered table
  := by
  have hfresh : registerName s.count ∉ s.registers.map (·.2) := by
    rw [List.mem_map]
    rintro ⟨entry, hentry, hname⟩
    obtain ⟨n, hlt, hn⟩ := h.names entry hentry
    have := registerName_injective (hn.symm.trans hname)
    omega
  refine ⟨?_, List.nodup_cons.mpr ⟨hfresh, h.distinct⟩, ?_⟩
  · intro entry hentry
    obtain rfl | hentry := List.mem_cons.mp hentry
    · use s.count, Nat.lt_succ_self _
      rfl
    · obtain ⟨n, hlt, hn⟩ := h.names entry hentry
      use n, Nat.lt_succ_of_lt hlt
  · intro entry hentry
    obtain rfl | hentry := List.mem_cons.mp hentry
    · apply isLoaded_of_loadValue? hv
    · apply h.loaded entry hentry

theorem Numbered.register (h : s.Numbered table) (o : Operand) :
  (s.register table o).1.Numbered table
  := by
  cases hv : s.loadValue? table o with
  | none =>
      rw [register_of_loadValue?_eq_none hv]
      apply h
  | some v =>
      rw [register_of_loadValue? hv]
      apply h.load hv

theorem Numbered.emit (h : s.Numbered table) (is : List MachineInstr) :
  (s.emit is).Numbered table
  := ⟨h.names, h.distinct, h.loaded⟩

theorem Numbered.fetchAll (h : s.Numbered table) (xs : List (Operand × Bool)) :
  (s.fetchAll table xs).Numbered table
  := by
  induction xs generalizing s with
  | nil => apply h
  | cons x xs ih =>
      apply ih
      rw [fetch]
      dsimp only
      split
      · apply (h.register x.1).emit
      · apply h.register

theorem numbered_after (table : Option SymbolTable) (p : Program) (j : Nat) :
  (after table p j).Numbered table
  := by
  induction j with
  | zero => apply numbered_empty
  | succ j ih =>
      cases hj : p[j]? with
      | none =>
          rw [after_of_le (List.getElem?_eq_none_iff.mp hj)]
          apply ih
      | some i =>
          rw [after_succ hj]
          apply (ih.fetchAll i.fetched).emit

/-- A fetched operand that is loaded has an entry. -/
theorem exists_entry (h : s.loadValue? table o = none) (ho : o.IsLoaded table) :
  (o.key, s.nameOf o) ∈ s.registers
  := by
  rw [loadValue?] at h
  rw [nameOf]
  split at h
  · rename_i r hlookup
    rw [hlookup]
    obtain ⟨before, rest, hsplit, -⟩ := List.lookup_eq_some_iff.mp hlookup
    simp [hsplit]
  · obtain hkind | ⟨hkind, hknows⟩ := ho
    · simp [hkind] at h
    · rw [Knows, Option.isSome_iff_exists] at hknows
      obtain ⟨address, haddress⟩ := hknows
      simp [hkind, haddress] at h

/-- A fetched operand that is loaded has a numbered register. -/
theorem Numbered.nameOf_eq_registerName (hs : s.Numbered table) (h : s.loadValue? table o = none)
    (ho : o.IsLoaded table) :
  ∃ n, s.nameOf o = registerName n
  := by
  obtain ⟨n, -, hn⟩ := hs.names _ (exists_entry h ho)
  use n, hn

/-- An operand that is not loaded serves as a register under its own name. -/
theorem Numbered.nameOf_eq_text (hs : s.Numbered table) (ho : ¬ o.IsLoaded table) :
  s.nameOf o = o.text
  := by
  rw [nameOf]
  cases hlookup : s.registers.lookup o.key with
  | none => rfl
  | some r =>
      obtain ⟨before, rest, hsplit, -⟩ := List.lookup_eq_some_iff.mp hlookup
      apply absurd (hs.loaded (o.key, r) _) ho
      simp [hsplit]

/-- No two operands are loaded into the same register. -/
theorem Numbered.key_eq (hs : s.Numbered table) (h : s.loadValue? table o = none)
    (h' : s.loadValue? table o' = none) (ho : o.IsLoaded table) (ho' : o'.IsLoaded table)
    (hname : s.nameOf o = s.nameOf o') :
  o.key = o'.key
  := by
  have hentry :=
    List.inj_on_of_nodup_map hs.distinct (exists_entry h ho) (exists_entry h' ho') hname
  apply (Prod.mk.inj hentry).1

end Lowering

namespace Program

variable {table : Option SymbolTable} {p : Program} {o o' : Operand} {r r' : Text}

/-- Lowering the program fetches the operand `o` at some point and uses the register `r` for it. -/
def Resolves (table : Option SymbolTable) (p : Program) (o : Operand) (r : Text) : Prop :=
  ∃ j i before pushed rest, p[j]? = some i ∧ i.fetched = before ++ (o, pushed) :: rest
    ∧ r = (((Lowering.after table p j).fetchAll table before).register table o).2

/-- The register that is used for an operand is the one that it has in the end. -/
theorem Resolves.settled (h : p.Resolves table o r) :
  (Lowering.after table p p.length).loadValue? table o = none
    ∧ (Lowering.after table p p.length).nameOf o = r
  := by
  obtain ⟨j, i, before, pushed, rest, hi, hfetched, rfl⟩ := h
  have hmem : (o, pushed) ∈ i.fetched := by simp [hfetched]
  have hlt : j < p.length := (List.getElem?_eq_some_iff.mp hi).1
  have hname := Lowering.nameOf_fetchAll table (Lowering.after table p j) before (o, pushed) rest
  rw [← hfetched] at hname
  have hkeeps := Lowering.keeps_after table p (Nat.succ_le_of_lt hlt) o
  rw [Lowering.after_succ hi] at hkeeps
  obtain ⟨hsettled, hname'⟩ := hkeeps (Lowering.settled_fetchAll hmem _)
  use hsettled, hname'.trans hname

/-- An operand that is loaded has a numbered register. -/
theorem Resolves.eq_registerName (h : p.Resolves table o r) (ho : o.IsLoaded table) :
  ∃ n, r = registerName n
  := by
  obtain ⟨hsettled, rfl⟩ := h.settled
  apply (Lowering.numbered_after table p p.length).nameOf_eq_registerName hsettled ho

/-- An operand that is not loaded serves as a register under its own name. -/
theorem Resolves.eq_text (h : p.Resolves table o r) (ho : ¬ o.IsLoaded table) :
  r = o.text
  := by
  obtain ⟨-, rfl⟩ := h.settled
  apply (Lowering.numbered_after table p p.length).nameOf_eq_text ho

/-- No two operands are loaded into the same register. -/
theorem Resolves.key_eq (h : p.Resolves table o r) (h' : p.Resolves table o' r)
    (ho : o.IsLoaded table) (ho' : o'.IsLoaded table) :
  o.key = o'.key
  := by
  obtain ⟨hsettled, hname⟩ := h.settled
  obtain ⟨hsettled', hname'⟩ := h'.settled
  apply (Lowering.numbered_after table p p.length).key_eq hsettled hsettled' ho ho'
  rw [hname, hname']

theorem Resolves.made (hp : ∀ i ∈ p, i.Made) (h : p.Resolves table o r) :
  o.Made
  := by
  obtain ⟨j, i, before, pushed, rest, hi, hfetched, -⟩ := h
  have hmem : (o, pushed) ∈ i.fetched := by simp [hfetched]
  apply (hp i (List.mem_of_getElem? hi)).operands
  apply Instr.mem_operands_of_mem_fetched hmem

end Program

/-! ### Operands that share a register -/

variable {table : Option SymbolTable} {p : Program} {o o' : Operand} {r r' : Text}

theorem Operand.not_isLoaded_of_temp (h : o.kind = .temp) :
  ¬ o.IsLoaded table
  := by
  rintro (hkind | ⟨hkind, -⟩)
  · rw [h] at hkind
    cases hkind
  · rw [h] at hkind
    cases hkind

theorem Operand.not_isLoaded_of_var (h : o.kind = .var) (hknows : ¬ Knows table o.text) :
  ¬ o.IsLoaded table
  := by
  rintro (hkind | ⟨-, h'⟩)
  · rw [h] at hkind
    cases hkind
  · apply hknows h'

/-- An operand that is not loaded is a temporary, or a variable that the table does not know. -/
theorem Operand.Made.cases_of_not_isLoaded (h : o.Made) (ho : ¬ o.IsLoaded table) :
  (∃ k, o = .ofTemp k) ∨ o.kind = .var ∧ ¬ Knows table o.text
  := by
  cases h with
  | literal kind text =>
      apply absurd _ ho
      left
      rfl
  | var name =>
      right
      use rfl
      intro hknows
      apply ho
      right
      use rfl
  | temp k =>
      left
      use k

/-- The operand `o` is a variable that the table does not know and bears the name of the register
`r'` of the operand `o'`, which is a temporary or has been loaded. -/
def Operand.BearsNameOf (table : Option SymbolTable) (o o' : Operand) (r' : Text) : Prop :=
  o.kind = .var ∧ ¬ Knows table o.text
    ∧ (o'.kind = .temp ∧ o.text = o'.text
      ∨ o'.IsLoaded table ∧ ∃ n, r' = registerName n ∧ o.text = registerName n)

namespace Program.Resolves

/-- A variable that bears the name of the register of another operand shares it. -/
theorem eq_of_bearsNameOf (h : p.Resolves table o r) (h' : p.Resolves table o' r')
    (hname : o.BearsNameOf table o' r') :
  r = r'
  := by
  obtain ⟨hkind, hknows, hname⟩ := hname
  rw [h.eq_text (Operand.not_isLoaded_of_var hkind hknows)]
  obtain ⟨htemp, htext⟩ | ⟨-, n, hr', htext⟩ := hname
  · rw [h'.eq_text (Operand.not_isLoaded_of_temp htemp), htext]
  · rw [htext, hr']

/-- An operand that is loaded shares its register only with a variable of that name. -/
theorem bearsNameOf_of_isLoaded (hp : ∀ i ∈ p, i.Made) (h : p.Resolves table o r)
    (h' : p.Resolves table o' r) (hne : o.key ≠ o'.key)
    (ho : o.IsLoaded table) :
  o'.BearsNameOf table o r
  := by
  have ho' : ¬ o'.IsLoaded table := fun ho' => hne (h.key_eq h' ho ho')
  obtain ⟨n, rfl⟩ := h.eq_registerName ho
  have htext := h'.eq_text ho'
  obtain ⟨k, rfl⟩ | ⟨hkind, hknows⟩ := (h'.made hp).cases_of_not_isLoaded ho'
  · apply absurd htext (registerName_ne_ofTemp n k)
  · use hkind, hknows
    right
    use ho, n, rfl, htext.symm

/-- Of two operands under their own names one is a variable of the name of the other. -/
theorem bearsNameOf_of_not_isLoaded (hp : ∀ i ∈ p, i.Made) (h : p.Resolves table o r)
    (h' : p.Resolves table o' r) (hne : o.key ≠ o'.key)
    (ho : ¬ o.IsLoaded table) (ho' : ¬ o'.IsLoaded table) :
  o.BearsNameOf table o' r ∨ o'.BearsNameOf table o r
  := by
  have htext : o.text = o'.text := (h.eq_text ho).symm.trans (h'.eq_text ho')
  obtain ⟨k, rfl⟩ | ⟨hkind, hknows⟩ := (h.made hp).cases_of_not_isLoaded ho
  · obtain ⟨k', rfl⟩ | ⟨hkind', hknows'⟩ := (h'.made hp).cases_of_not_isLoaded ho'
    · apply absurd _ hne
      rw [Operand.key, Operand.key, htext]
      rfl
    · right
      use hkind', hknows'
      left
      use rfl, htext.symm
  · obtain ⟨k', rfl⟩ | ⟨hkind', -⟩ := (h'.made hp).cases_of_not_isLoaded ho'
    · left
      use hkind, hknows
      left
      use rfl, htext
    · apply absurd _ hne
      rw [Operand.key, Operand.key, hkind, hkind', htext]

end Program.Resolves

/-- Two different operands of generated code share a register exactly if one of them is a variable
that the table does not know and bears the name of the other's register. -/
theorem operands_share_register_iff {program : List Stmt} {table₀ table : SymbolTable}
    {p : Program} (hp : generate program table₀ = (.ok p, table)) {o o' : Operand} {r r' : Text}
    (h : p.Resolves (some table) o r) (h' : p.Resolves (some table) o' r')
    (hne : o.key ≠ o'.key) :
  r = r' ↔ o.BearsNameOf (some table) o' r' ∨ o'.BearsNameOf (some table) o r
  := by
  have hmade := made_of_generate hp
  constructor
  · rintro rfl
    by_cases ho : o.IsLoaded (some table)
    · right
      apply h.bearsNameOf_of_isLoaded hmade h' hne ho
    · by_cases ho' : o'.IsLoaded (some table)
      · left
        apply h'.bearsNameOf_of_isLoaded hmade h hne.symm ho'
      · apply h.bearsNameOf_of_not_isLoaded hmade h' hne ho ho'
  · rintro (hname | hname)
    · apply h.eq_of_bearsNameOf h' hname
    · apply (h'.eq_of_bearsNameOf h hname).symm

/-- A sum of a declared and an undeclared variable. -/
def halfDeclaredSum : List Stmt :=
  [.letVar {} "x" {} (.literal {} .number "1"),
   .print {} (.binary {} .add (.ident {} "x") (.ident {} "y"))]

def halfDeclaredSumCode : Program :=
  [{ kind := .assign, target := .var "x", source := .literal .number "1" },
   { kind := .binary .add, target := .ofTemp 0, left := .var "x", right := .var "y" },
   { kind := .print, source := .ofTemp 0 }]

theorem halfDeclaredSum_operands_apart :
  ∃ table, generate halfDeclaredSum {} = (.ok halfDeclaredSumCode, table)
    ∧ halfDeclaredSumCode.Resolves (some table) (.literal .number "1") "r1"
    ∧ halfDeclaredSumCode.Resolves (some table) (.var "y") "y"
    ∧ ¬ (Operand.var "y").BearsNameOf (some table) (.literal .number "1") "r1"
  := by
  have hcode : generate halfDeclaredSum {}
      = (.ok halfDeclaredSumCode, (generate halfDeclaredSum {}).2) := by
    apply Prod.ext
    · decide +kernel
    · rfl
  have h : halfDeclaredSumCode.Resolves (some (generate halfDeclaredSum {}).2)
      (.literal .number "1") "r1" :=
    ⟨0, _, [(.var "x", false)], false, [], rfl, rfl, by decide +kernel⟩
  have h' : halfDeclaredSumCode.Resolves (some (generate halfDeclaredSum {}).2) (.var "y") "y" :=
    ⟨1, _, [(.ofTemp 0, false), (.var "x", false)], false, [], rfl, rfl, by decide +kernel⟩
  use (generate halfDeclaredSum {}).2, hcode, h, h'
  intro hname
  have heq := (operands_share_register_iff hcode h h' (by decide)).mpr (.inr hname)
  cases heq

/-- A function whose parameter bears the name of a numbered register, and a variable that bears the
name of a temporary. -/
def borrowedNames : List Stmt :=
  [.function {} "f" {} [⟨"r0", {}⟩]
    [.print {} (.binary {} .add (.ident {} "r0") (.literal {} .number "1"))],
   .print {} (.binary {} .sub (.ident {} "t1")
    (.binary {} .mul (.literal {} .number "2") (.literal {} .number "3")))]

def borrowedNamesCode : Program :=
  [{ kind := .functionStart, func := "f", params := ["r0"] },
   { kind := .binary .add, target := .ofTemp 0, left := .var "r0", right := .literal .number "1" },
   { kind := .print, source := .ofTemp 0 },
   { kind := .functionEnd },
   { kind := .binary .mul, target := .ofTemp 1, left := .literal .number "2",
     right := .literal .number "3" },
   { kind := .binary .sub, target := .ofTemp 2, left := .var "t1", right := .ofTemp 1 },
   { kind := .print, source := .ofTemp 2 }]

/-- The parameter `r0` and the literal `1` share the register `r0`, so the code adds the literal to
itself.  The variable `t1` and the second temporary share the register `t1`. -/
theorem borrowedNames_share_registers :
  ∃ table, generate borrowedNames {} = (.ok borrowedNamesCode, table)
    ∧ borrowedNamesCode.Resolves (some table) (.var "r0") "r0"
    ∧ borrowedNamesCode.Resolves (some table) (.literal .number "1") "r0"
    ∧ borrowedNamesCode.Resolves (some table) (.var "t1") "t1"
    ∧ borrowedNamesCode.Resolves (some table) (.ofTemp 1) "t1"
    ∧ ∃ m, borrowedNamesCode.lower (some table) = .ok m
      ∧ { op := .add, reg := "t0", left := "r0", right := "r0" } ∈ m
      ∧ { op := .sub, reg := "t2", left := "t1", right := "t1" } ∈ m
  := by
  have hcode : generate borrowedNames {}
      = (.ok borrowedNamesCode, (generate borrowedNames {}).2) := by
    apply Prod.ext
    · decide +kernel
    · rfl
  use (generate borrowedNames {}).2, hcode
  refine ⟨?_, ?_, ?_, ?_, _, rfl, ?_, ?_⟩
  · exact ⟨1, _, [(.ofTemp 0, false)], false, _, rfl, rfl, by decide +kernel⟩
  · exact ⟨1, _, [(.ofTemp 0, false), (.var "r0", false)], false, [], rfl, rfl, by decide +kernel⟩
  · exact ⟨5, _, [(.ofTemp 2, false)], false, _, rfl, rfl, by decide +kernel⟩
  · exact ⟨5, _, [(.ofTemp 2, false), (.var "t1", false)], false, [], rfl, rfl, by decide +kernel⟩
  · decide +kernel
  · decide +kernel

end ThreeAddress
