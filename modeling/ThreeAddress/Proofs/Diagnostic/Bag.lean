import Mathlib.Data.List.Perm.Subperm
import Mathlib.Data.Option.Basic
import ThreeAddress.Proofs.Diagnostic.Key

/-!
# Laws of bags

A bag takes findings from the front as long as there is room.  A limit is never so small that the
first finding is lost.

Of repeated findings the first one is kept.  The sieve that drops the others moves findings up in
the cells that it reads from.  It never writes to a cell that was not read yet, so it sees the
findings as they were.
-/

namespace ThreeAddress

namespace Bag

/-- As many of some findings as a bag still takes. -/
def fitting (b : Bag) (ds : List Diagnostic) : List Diagnostic :=
  if b.limit = 0 then ds else ds.take (b.limit - b.items.length)

theorem isFull_iff (b : Bag) :
  b.isFull = true ↔ 0 < b.limit ∧ b.limit ≤ b.items.length
  := by
  simp only [isFull, Bool.and_eq_true, bne_iff_ne, decide_eq_true_eq, Nat.pos_iff_ne_zero]

@[simp]
theorem limit_add (b : Bag) (d : Diagnostic) :
  (b.add d).limit = b.limit
  := by
  rw [add]
  split
  · rfl
  · rfl

@[simp]
theorem limit_addAll (b : Bag) (ds : List Diagnostic) :
  (b.addAll ds).limit = b.limit
  := by
  induction ds generalizing b with
  | nil => rfl
  | cons d ds ih =>
      change ((b.add d).addAll ds).limit = _
      rw [ih, limit_add]

theorem addAll_of_isFull {b : Bag} (h : b.isFull = true) (ds : List Diagnostic) :
  b.addAll ds = b
  := by
  induction ds with
  | nil => rfl
  | cons d ds ih =>
      change (b.add d).addAll ds = _
      rw [add, if_pos h, ih]

theorem items_addAll (b : Bag) (ds : List Diagnostic) :
  (b.addAll ds).items = b.items ++ b.fitting ds
  := by
  induction ds generalizing b with
  | nil => simp [addAll, fitting]
  | cons d ds ih =>
      by_cases hfull : b.isFull
      · have hroom := (isFull_iff b).mp hfull
        rw [addAll_of_isFull hfull, fitting, if_neg (by omega), Nat.sub_eq_zero_of_le hroom.2,
          List.take_zero, List.append_nil]
      · change ((b.add d).addAll ds).items = _
        rw [ih, add, if_neg hfull, fitting, fitting]
        dsimp only
        rw [isFull_iff] at hfull
        split
        · simp
        · next hlimit =>
          have hroom : b.limit - b.items.length = (b.limit - (b.items ++ [d]).length) + 1 := by
            simp only [List.length_append, List.length_singleton]
            omega
          rw [hroom, List.take_succ_cons, List.append_assoc, List.singleton_append]

/-- An empty bag takes all that its limit allows. -/
theorem items_addAll_of_nil {b : Bag} (h : b.items = []) (ds : List Diagnostic) :
  (b.addAll ds).items = if b.limit = 0 then ds else ds.take b.limit
  := by
  rw [items_addAll, h, fitting, h]
  rfl

/-- An empty bag takes the first finding. -/
theorem head?_items_addAll {b : Bag} (h : b.items = []) (ds : List Diagnostic) :
  (b.addAll ds).items.head? = ds.head?
  := by
  rw [items_addAll_of_nil h]
  split
  · rfl
  · next hlimit => rw [List.head?_take, if_neg hlimit]

theorem mem_of_mem_addAll {b : Bag} (h : b.items = []) {ds : List Diagnostic} {d : Diagnostic}
    (hd : d ∈ (b.addAll ds).items) :
  d ∈ ds
  := by
  rw [items_addAll_of_nil h] at hd
  split at hd
  · exact hd
  · exact List.mem_of_mem_take hd

theorem hasErrors_iff (b : Bag) :
  b.hasErrors = true ↔ ∃ d ∈ b.items, d.severity.isError = true
  := List.any_eq_true

theorem hasErrors_of_head? {b : Bag} {d : Diagnostic} (h : b.items.head? = some d)
    (hd : d.severity = .error) :
  b.hasErrors = true
  := by
  rw [hasErrors_iff]
  refine ⟨d, List.mem_of_head? h, ?_⟩
  rw [hd]
  rfl

theorem hasErrors_of_nil {b : Bag} (h : b.items = []) :
  b.hasErrors = false
  := by
  rw [hasErrors, h, List.any_nil]

/-- An empty bag takes any finding. -/
theorem items_add_of_nil {b : Bag} (h : b.items = []) (d : Diagnostic) :
  (b.add d).items = [d]
  := by
  have hfull : ¬ b.isFull := by
    rw [isFull_iff, h, List.length_nil]
    omega
  rw [add, if_neg hfull, h, List.nil_append]

end Bag

/-! ### The first of each -/

/-- What is left of a list if the first of those that are the same stays: what is at some places, in
their order.  No two that stay are the same, and whatever does not stay is the same as something
before it that does. -/
structure FirstOfEach {α : Type} (same : α → α → Prop) (said kept : List α) (places : List Nat) :
    Prop where
  ascending : places.Pairwise (· < ·)
  kept_eq : places.map (said[·]?) = kept.map some
  distinct : kept.Pairwise fun d e => ¬ same d e
  repeated : ∀ {i d}, said[i]? = some d → i ∉ places →
    ∃ j ∈ places, j < i ∧ ∃ e, said[j]? = some e ∧ same e d

namespace FirstOfEach

variable {α : Type} {same : α → α → Prop} {said kept : List α} {places : List Nat} {d e : α}

theorem nil :
  FirstOfEach same [] [] []
  where
  ascending := .nil
  kept_eq := rfl
  distinct := .nil
  repeated h := by cases h

theorem lt_length (h : FirstOfEach same said kept places) {i : Nat} (hi : i ∈ places) :
  i < said.length
  := by
  have hmem : said[i]? ∈ kept.map some := h.kept_eq ▸ List.mem_map_of_mem hi
  obtain ⟨d, -, hd⟩ := List.mem_map.mp hmem
  exact (List.getElem?_eq_some_iff.mp hd.symm).1

theorem length_places (h : FirstOfEach same said kept places) :
  places.length = kept.length
  := by
  have hlength := congrArg List.length h.kept_eq
  rwa [List.length_map, List.length_map] at hlength

/-- What stays stands at one of the places. -/
theorem exists_place (h : FirstOfEach same said kept places) (he : e ∈ kept) :
  ∃ j ∈ places, said[j]? = some e
  := by
  have hmem : some e ∈ places.map (said[·]?) := h.kept_eq ▸ List.mem_map_of_mem he
  exact List.mem_map.mp hmem

theorem sublist (h : FirstOfEach same said kept places) :
  kept.Sublist said
  := by
  have hlt : ∀ i ∈ places, i < said.length := fun _ => h.lt_length
  have hkept : (places.pmap Fin.mk hlt).map (said[·]) = kept := by
    apply List.map_injective_iff.mpr (Option.some_injective α)
    rw [← h.kept_eq, List.map_map, List.map_pmap, ← List.pmap_eq_map hlt]
    apply List.pmap_congr_left
    intro i _ hi _
    exact (List.getElem?_eq_getElem hi).symm
  rw [← hkept]
  apply List.map_getElem_sublist
  apply h.ascending.pmap
  exact fun _ _ _ _ => id

/-- More behind the list does not change what is at the places. -/
theorem map_append (h : FirstOfEach same said kept places) (rest : List α) :
  places.map ((said ++ rest)[·]?) = kept.map some
  := by
  rw [← h.kept_eq]
  apply List.map_congr_left
  intro i hi
  exact List.getElem?_append_left (h.lt_length hi)

theorem repeated_append (h : FirstOfEach same said kept places) (rest : List α) {i : Nat}
    (hi : i < said.length) (hd : (said ++ rest)[i]? = some d) (hplaces : i ∉ places) :
  ∃ j ∈ places, j < i ∧ ∃ e, (said ++ rest)[j]? = some e ∧ same e d
  := by
  rw [List.getElem?_append_left hi] at hd
  obtain ⟨j, hj, hlt, e, he, hsame⟩ := h.repeated hd hplaces
  refine ⟨j, hj, hlt, e, ?_, hsame⟩
  rw [List.getElem?_append_left (h.lt_length hj), he]

/-- Something that is the same as one that stays does not stay. -/
theorem drop (h : FirstOfEach same said kept places) (he : e ∈ kept) (hsame : same e d) :
  FirstOfEach same (said ++ [d]) kept places
  where
  ascending := h.ascending
  kept_eq := h.map_append [d]
  distinct := h.distinct
  repeated := by
    intro i d' hd' hplaces
    obtain hi | hi := Nat.lt_or_ge i said.length
    · exact h.repeated_append [d] hi hd' hplaces
    · rw [List.getElem?_append_right hi] at hd'
      obtain rfl := List.mem_singleton.mp (List.mem_of_getElem? hd')
      obtain ⟨j, hj, hje⟩ := h.exists_place he
      have hlt := h.lt_length hj
      refine ⟨j, hj, by omega, e, ?_, hsame⟩
      rw [List.getElem?_append_left hlt, hje]

/-- Something that is new stays behind the others. -/
theorem keep (h : FirstOfEach same said kept places) (hnew : ∀ e ∈ kept, ¬ same e d) :
  FirstOfEach same (said ++ [d]) (kept ++ [d]) (places ++ [said.length])
  where
  ascending := by
    rw [List.pairwise_append]
    refine ⟨h.ascending, List.pairwise_singleton _ _, ?_⟩
    intro i hi j hj
    rw [List.mem_singleton.mp hj]
    exact h.lt_length hi
  kept_eq := by
    rw [List.map_append, List.map_append, h.map_append [d]]
    simp
  distinct := by
    rw [List.pairwise_append]
    refine ⟨h.distinct, List.pairwise_singleton _ _, ?_⟩
    intro e he d' hd'
    rw [List.mem_singleton.mp hd']
    exact hnew e he
  repeated := by
    intro i d' hd' hplaces
    rw [List.mem_append, List.mem_singleton, not_or] at hplaces
    have hbound := (List.getElem?_eq_some_iff.mp hd').1
    rw [List.length_append, List.length_singleton] at hbound
    obtain ⟨j, hj, hrest⟩ := h.repeated_append [d] (by omega) hd' hplaces.1
    exact ⟨j, List.mem_append_left _ hj, hrest⟩

/-- The first one stays. -/
theorem head?_eq (h : FirstOfEach same said kept places) :
  kept.head? = said.head?
  := by
  cases said with
  | nil => rw [List.sublist_nil.mp h.sublist]
  | cons d said =>
      have hzero : 0 ∈ places := by
        by_contra hplaces
        obtain ⟨j, -, hlt, -⟩ := h.repeated (i := 0) rfl hplaces
        exact Nat.not_lt_zero j hlt
      obtain ⟨i, is, rfl⟩ := List.exists_cons_of_ne_nil (List.ne_nil_of_mem hzero)
      have hi : i = 0 := by
        obtain h0 | hmem := List.mem_cons.mp hzero
        · exact h0.symm
        · exact absurd (List.rel_of_pairwise_cons h.ascending hmem) (Nat.not_lt_zero i)
      have hkept := congrArg List.head? h.kept_eq
      rw [List.map_cons, List.head?_cons, List.head?_map, hi] at hkept
      obtain ⟨e, he, heq⟩ := Option.map_eq_some_iff.mp hkept.symm
      rw [he, List.head?_cons]
      exact heq

/-- Where no two are the same, all stay. -/
theorem eq_self (h : FirstOfEach same said kept places)
    (hsaid : said.Pairwise fun d e => ¬ same d e) :
  kept = said
  := by
  -- What stands at any other place would be the same as something before it.
  have hall : ∀ i < said.length, i ∈ places := by
    intro i hi
    by_contra hplaces
    obtain ⟨j, -, hlt, e, he, hsame⟩ := h.repeated (List.getElem?_eq_getElem hi) hplaces
    obtain ⟨hj, rfl⟩ := List.getElem?_eq_some_iff.mp he
    exact List.pairwise_iff_getElem.mp hsaid j i hj hi hlt hsame
  have hsubperm : (List.range said.length).Subperm places :=
    List.nodup_range.subperm fun i hi => hall i (List.mem_range.mp hi)
  have hlength := hsubperm.length_le
  rw [List.length_range, h.length_places] at hlength
  exact h.sublist.eq_of_length_le hlength

/-- Only what is the same within the list matters. -/
theorem congr {same' : α → α → Prop} (h : FirstOfEach same said kept places)
    (hsame : ∀ d ∈ said, ∀ e ∈ said, same d e ↔ same' d e) :
  FirstOfEach same' said kept places
  where
  ascending := h.ascending
  kept_eq := h.kept_eq
  distinct := by
    apply h.distinct.imp_of_mem
    intro d e hd he hne
    rwa [← hsame d (h.sublist.mem hd) e (h.sublist.mem he)]
  repeated := by
    intro i d hd hplaces
    obtain ⟨j, hj, hlt, e, he, hed⟩ := h.repeated hd hplaces
    refine ⟨j, hj, hlt, e, he, ?_⟩
    exact (hsame e (List.mem_of_getElem? he) d (List.mem_of_getElem? hd)).mp hed

end FirstOfEach

/-! ### Repeated findings -/

namespace Bag

variable {b : Bag} {d : Diagnostic}

/-- Of the findings `before` those in `kept` were kept, and their keys were seen. -/
structure Sifted (before kept : List Diagnostic) (seen : List Text) : Prop where
  first : ∃ places, FirstOfEach Diagnostic.SameKey before kept places
  seen_iff : ∀ k, k ∈ seen ↔ ∃ d ∈ kept, d.key = k

theorem Sifted.siftEach {before kept : List Diagnostic} {seen : List Text}
    (h : Sifted before kept seen) (ds : List Diagnostic) :
  Sifted (before ++ ds) (kept ++ (siftEach isNew seen ds).1) (siftEach isNew seen ds).2
  := by
  induction ds generalizing before kept seen with
  | nil =>
      rw [ThreeAddress.siftEach, List.append_nil, List.append_nil]
      exact h
  | cons d ds ih =>
      obtain ⟨places, hfirst⟩ := h.first
      rw [ThreeAddress.siftEach, List.append_cons before, isNew]
      by_cases hseen : d.key ∈ seen
      · obtain ⟨e, he, hsame⟩ := (h.seen_iff _).mp hseen
        rw [if_pos hseen, if_neg Bool.false_ne_true]
        exact ih ⟨⟨places, hfirst.drop he hsame⟩, h.seen_iff⟩
      · rw [if_neg hseen, if_pos rfl, List.append_cons kept]
        apply ih
        refine ⟨⟨places ++ [before.length], hfirst.keep ?_⟩, ?_⟩
        · intro e he hsame
          exact hseen ((h.seen_iff _).mpr ⟨e, he, hsame⟩)
        · intro k
          rw [List.mem_cons, h.seen_iff k]
          simp only [List.mem_append, List.mem_singleton, or_and_right, exists_or, exists_eq_left]
          rw [or_comm, eq_comm]

/-- Of the findings that are not told apart the first one is kept. -/
theorem exists_firstOfEach_dedup (b : Bag) :
  ∃ places, FirstOfEach Diagnostic.SameKey b.items b.dedup.items places
  := by
  have hempty : Sifted [] [] [] := ⟨⟨[], FirstOfEach.nil⟩, by simp⟩
  have hsifted := hempty.siftEach b.items
  rw [List.nil_append, List.nil_append, ← sift_eq_siftEach] at hsifted
  exact hsifted.first

theorem mem_of_mem_dedup (h : d ∈ b.dedup.items) :
  d ∈ b.items
  := by
  obtain ⟨places, hfirst⟩ := b.exists_firstOfEach_dedup
  exact hfirst.sublist.mem h

/-- The first finding repeats none. -/
theorem head?_items_dedup (b : Bag) :
  b.dedup.items.head? = b.items.head?
  := by
  obtain ⟨places, hfirst⟩ := b.exists_firstOfEach_dedup
  exact hfirst.head?_eq

/-- What is kept is told apart already. -/
theorem dedup_dedup (b : Bag) :
  b.dedup.dedup = b.dedup
  := by
  obtain ⟨places, hfirst⟩ := b.exists_firstOfEach_dedup
  obtain ⟨places', hfirst'⟩ := b.dedup.exists_firstOfEach_dedup
  calc b.dedup.dedup
    _ = { b.dedup with items := b.dedup.dedup.items } := rfl
    _ = b.dedup := by rw [hfirst'.eq_self hfirst.distinct]

/-- If the codes of a bag are declared, then a subsequence of its findings is kept in which no two
agree in code, span and message; each finding that is not kept agrees in them with a kept one before
it; and dropping repeated findings again changes nothing. -/
theorem dedup_keeps_first_of_each (h : ∀ d ∈ b.items, d.code.IsDeclared) :
  b.dedup.items.Sublist b.items
  ∧ (∃ places, FirstOfEach Diagnostic.Repeats b.items b.dedup.items places)
  ∧ b.dedup.dedup = b.dedup
  := by
  obtain ⟨places, hfirst⟩ := b.exists_firstOfEach_dedup
  refine ⟨hfirst.sublist, ⟨places, hfirst.congr ?_⟩, b.dedup_dedup⟩
  intro d hd e he
  exact ⟨fun hsame => hsame.repeats (h d hd) (h e he), fun hrepeats => hrepeats.sameKey⟩

/-- A finding that comes again as an error and with a note, and between the two one whose message
starts with the span once more. -/
theorem first_of_repeated_spill :
  let spill : Diagnostic :=
    { severity := .info, code := .spilled, span := ⟨0, 1, 2⟩, message := "3:x" }
  let longer : Diagnostic := { spill with message := "0:1-2:3:x" }
  let again : Diagnostic := { spill with severity := .error, notes := [⟨⟨0, 0, 1⟩, "y"⟩] }
  let b : Bag := { items := [spill, longer, again] }
  (∀ d ∈ b.items, d.code.IsDeclared)
  ∧ b.dedup.items = [spill, longer]
  ∧ b.dedup.items.Sublist b.items
  ∧ (∃ places, FirstOfEach Diagnostic.Repeats b.items b.dedup.items places)
  ∧ b.dedup.dedup = b.dedup
  := by
  intro spill longer again b
  have hdeclared : ∀ d ∈ b.items, d.code.IsDeclared := by decide
  exact ⟨hdeclared, by decide +kernel, dedup_keeps_first_of_each hdeclared⟩

end Bag

end ThreeAddress
