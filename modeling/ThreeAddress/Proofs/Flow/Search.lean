import ThreeAddress.Proofs.Flow.Levels
import ThreeAddress.Word

/-!
# Searching the block around an instruction

The blocks of a program stand in the order of their starts, without a gap between them.  So the
blocks that do not start behind a place come first in the order, the search finds the last of them,
and no other block can hold the place.

How far a block starts behind a place is a word, which wraps around for blocks far behind a place
near the least word.  These come last in the order.  The first block that the search looks at is the
one in the middle.  If its distance is made exactly, no block that the search looks at later is far
away, and what is found is right; if it wraps around, a block is found that is not around the place.
-/

namespace ThreeAddress

namespace Graph

/-- Whatever the distances are, the search ends between its bounds. -/
theorem exists_searchOrder? {distance? : Text → Option Int} {order : List Text} {low high : Nat}
    (hentry : ∀ i < high, ∃ d, order[i]?.bind distance? = some d) (hle : low ≤ high) :
  ∃ n, low ≤ n ∧ n ≤ high ∧ searchOrder? distance? order low high = some n
  := by
  fun_induction searchOrder? with
  | case1 low high hlt middle hnone =>
      obtain ⟨d, hd⟩ := hentry middle (by omega)
      rw [hd] at hnone
      cases hnone
  | case2 low high hlt middle distance hsome hneg ih =>
      obtain ⟨n, hlow, hhigh, hn⟩ := ih hentry (by omega)
      exact ⟨n, by omega, hhigh, hn⟩
  | case3 low high hlt middle distance hsome hneg ih =>
      obtain ⟨n, hlow, hhigh, hn⟩ := ih (fun i hi => hentry i (by omega)) (by omega)
      exact ⟨n, hlow, by omega, hn⟩
  | case4 low high hge =>
      exact ⟨low, Nat.le_refl _, hle, rfl⟩

section Build

variable {p : Program} {place : Int} {before after : List (Nat × Nat)}

theorem distance?_build {c : Nat × Nat} (hc : c ∈ cuts p) :
  (build p).distance? place (blockName c.1) = some (Word.minus c.1 place)
  := by
  rw [distance?, block?_build hc]
  rfl

theorem start_lt_length {c : Nat × Nat} (hc : c ∈ cuts p) :
  c.1 < p.length
  := Nat.lt_of_le_of_lt (start_le_stop_of_mem_cuts hc) (stop_lt_of_mem_cuts hc)

theorem length_order_build (p : Program) :
  (build p).order.length = (cuts p).length
  := by
  rw [build_order, List.length_map]

theorem order_bind_distance? {i : Nat} (hi : i < (cuts p).length) :
  (build p).order[i]?.bind ((build p).distance? place) = some (Word.minus (cuts p)[i].1 place)
  := by
  rw [build_order, List.getElem?_map, List.getElem?_eq_getElem hi, Option.map_some,
    Option.bind_some, distance?_build (List.getElem_mem hi)]

/-- The stretches that do not start behind a place come first. -/
theorem exists_split_cuts (p : Program) (place : Int) :
  ∃ before after, cuts p = before ++ after ∧ (∀ c ∈ before, (c.1 : Int) ≤ place)
    ∧ ∀ c ∈ after, place < c.1
  := by
  have hmain : ∀ {cs : List (Nat × Nat)}, cs.Pairwise (fun c d => c.1 < d.1) →
      ∃ before after, cs = before ++ after ∧ (∀ c ∈ before, (c.1 : Int) ≤ place)
        ∧ ∀ c ∈ after, place < c.1 := by
    intro cs hcs
    induction cs with
    | nil => exact ⟨[], [], rfl, by simp, by simp⟩
    | cons c cs ih =>
        obtain ⟨hhead, htail⟩ := List.pairwise_cons.mp hcs
        by_cases hc : (c.1 : Int) ≤ place
        · obtain ⟨before, after, rfl, hbefore, hafter⟩ := ih htail
          exact ⟨c :: before, after, rfl, List.forall_mem_cons.mpr ⟨hc, hbefore⟩, hafter⟩
        · refine ⟨[], c :: cs, rfl, by simp, ?_⟩
          rw [List.forall_mem_cons]
          use Int.not_le.mp hc
          intro d hd
          have := hhead d hd
          omega
  exact hmain (cuts_pairwise p)

theorem start_lt_of_mem_init {init : List (Nat × Nat)} {c d : Nat × Nat}
    (hcuts : cuts p = init ++ [c] ++ after) (hd : d ∈ init) :
  d.1 < c.1
  := by
  have hsorted := cuts_pairwise p
  rw [hcuts, List.append_assoc] at hsorted
  exact (List.pairwise_append.mp hsorted).2.2 d hd c (by simp)

/-! ### Where no distance wraps around -/

/-- The starts of all blocks are at distances from a place that are words. -/
def InReach (p : Program) (place : Int) : Prop :=
  ∀ c ∈ cuts p, Word.minus c.1 place = c.1 - place

theorem searchOrder?_build (hreach : InReach p place) (hcuts : cuts p = before ++ after)
    (hbefore : ∀ c ∈ before, (c.1 : Int) < place) (hafter : ∀ c ∈ after, place ≤ c.1) :
  searchOrder? ((build p).distance? place) (build p).order 0 (build p).order.length
    = some before.length
  := by
  rw [build_order, hcuts]
  apply searchOrder?_append
  · intro c hc
    rw [← hcuts] at hc
    rw [distance?_build hc, hreach c hc]
  · intro c hc
    exact Int.sub_neg_of_lt (hbefore c hc)
  · intro c hc
    exact Int.sub_nonneg_of_le (hafter c hc)

/-- Behind the stretches that do not start behind a place, none starts at it. -/
theorem startsAt?_behind (hreach : InReach p place) (hcuts : cuts p = before ++ after)
    (hafter : ∀ c ∈ after, place < c.1) {n : Nat} (hn : n = before.length) :
  (build p).startsAt? place n = some false
  := by
  subst hn
  rw [startsAt?, build_order, List.getElem?_map, hcuts, List.getElem?_append_right (Nat.le_refl _),
    Nat.sub_self]
  cases after with
  | nil => rfl
  | cons c after =>
      have hmem : c ∈ cuts p := by simp [hcuts]
      have hlt := hafter c List.mem_cons_self
      have hne : ((c.1 : Int) - place == 0) = false := by
        rw [beq_eq_false_iff_ne]
        omega
      rw [List.getElem?_cons_zero, Option.map_some]
      dsimp only
      rw [distance?_build hmem, Option.map_some, hreach _ hmem, hne]

/-- The last block that does not start behind a place is found: it starts at the place, or is the
one before the first block that the search finds. -/
theorem lastBefore?_build (hreach : InReach p place) (hcuts : cuts p = before ++ after)
    (hbefore : ∀ c ∈ before, (c.1 : Int) ≤ place) (hafter : ∀ c ∈ after, place < c.1) :
  (build p).lastBefore? place = some ((before.length : Int) - 1)
  := by
  have hlt : ∀ c ∈ after, place ≤ c.1 := fun c hc => Int.le_of_lt (hafter c hc)
  obtain rfl | ⟨init, c, rfl⟩ := before.eq_nil_or_concat'
  · rw [lastBefore?, searchOrder?_build hreach hcuts (by simp) hlt, Option.bind_eq_bind,
      Option.bind_some, startsAt?_behind hreach hcuts hafter rfl]
    rfl
  · have hinit : ∀ d ∈ init, (d.1 : Int) < c.1 := by
      intro d hd
      exact Int.ofNat_lt.mpr (start_lt_of_mem_init hcuts hd)
    have hc := hbefore c (by simp)
    by_cases hstart : (c.1 : Int) = place
    · have hcuts' : cuts p = init ++ c :: after := by rw [hcuts, List.append_assoc]; rfl
      have hmem : c ∈ cuts p := by simp [hcuts]
      have hstarts : (build p).startsAt? place init.length = some true := by
        rw [startsAt?, build_order, List.getElem?_map, hcuts',
          List.getElem?_append_right (Nat.le_refl _), Nat.sub_self, List.getElem?_cons_zero,
          Option.map_some]
        dsimp only
        rw [distance?_build hmem, Option.map_some, hreach _ hmem, hstart, Int.sub_self]
        rfl
      rw [lastBefore?, searchOrder?_build hreach hcuts' (by rw [← hstart]; exact hinit)
        (List.forall_mem_cons.mpr ⟨Int.le_of_eq hstart.symm, hlt⟩), Option.bind_eq_bind,
        Option.bind_some, hstarts]
      simp
    · have hbelow : ∀ d ∈ init ++ [c], (d.1 : Int) < place := by
        rw [List.forall_mem_append, List.forall_mem_singleton]
        constructor
        · intro d hd
          have := hinit d hd
          omega
        · omega
      rw [lastBefore?, searchOrder?_build hreach hcuts hbelow hlt, Option.bind_eq_bind,
        Option.bind_some, startsAt?_behind hreach hcuts hafter rfl]
      rfl

/-- The block of the last of some stretches, unless it ends before a place. -/
def lastAround (p : Program) (place : Int) (before : List (Nat × Nat)) : Option Block :=
  before.getLast?.bind fun c => if (c.2 : Int) < place then none else some (blockOf p c)

/-- The search gives the last block that does not start behind the place, unless it ends before. -/
theorem search?_build (hreach : InReach p place) (hcuts : cuts p = before ++ after)
    (hbefore : ∀ c ∈ before, (c.1 : Int) ≤ place) (hafter : ∀ c ∈ after, place < c.1) :
  (build p).search? place = some (lastAround p place before)
  := by
  rw [search?, lastBefore?_build hreach hcuts hbefore hafter, Option.bind_eq_bind, Option.bind_some]
  obtain rfl | ⟨init, c, rfl⟩ := before.eq_nil_or_concat'
  · rfl
  · have hlength : (build p).order.length = init.length + 1 + after.length := by
      rw [build_order, List.length_map, hcuts, List.length_append, List.length_append]
      rfl
    have hn : ((init ++ [c]).length : Int) - 1 = init.length := by simp
    have hblock : (build p).order[init.length]?.bind (build p).block? = some (blockOf p c) := by
      have hmem : c ∈ cuts p := by simp [hcuts]
      rw [build_order, List.getElem?_map, hcuts, List.append_assoc,
        List.getElem?_append_right (Nat.le_refl _), Nat.sub_self]
      exact block?_build hmem
    rw [hn, if_neg (by omega), Int.toNat_natCast, hblock, lastAround, List.getLast?_concat]
    rfl

/-- A place of the program lies in the last stretch that does not start behind it. -/
theorem exists_last_of_lt (hcuts : cuts p = before ++ after) {n : Nat} (hn : n < p.length)
    (hbefore : ∀ c ∈ before, (c.1 : Int) ≤ n) (hafter : ∀ c ∈ after, (n : Int) < c.1) :
  ∃ c, before.getLast? = some c ∧ n ≤ c.2
  := by
  obtain ⟨a, e, hmem, ha, he⟩ := exists_cut hn
  have hin : (a, e) ∈ before := by
    rw [hcuts, List.mem_append] at hmem
    obtain h | h := hmem
    · exact h
    · have := hafter _ h
      dsimp only at this
      omega
  obtain rfl | ⟨init, c, rfl⟩ := before.eq_nil_or_concat'
  · cases hin
  · use c, List.getLast?_concat
    obtain h | h := List.mem_append.mp hin
    · have hlt := start_lt_of_mem_init hcuts h
      have hle := hbefore c (by simp)
      have hc : c.1 ∈ (cuts p).map (·.1) := List.mem_map_of_mem (by simp [hcuts])
      have := (tiles_cuts p).start_not_inside hmem hc
      dsimp only at hlt
      omega
    · rw [← List.mem_singleton.mp h]
      exact he

/-- A block that holds a place stands in the program, and so does the place. -/
theorem lt_length_of_holds {b : Block} (hb : b ∈ (build p).blockList) (hstart : b.start ≤ place)
    (hstop : place ≤ b.stop) :
  0 ≤ place ∧ place < p.length
  := by
  rw [blockList_build] at hb
  obtain ⟨c, hc, rfl⟩ := List.mem_map.mp hb
  have := stop_lt_of_mem_cuts hc
  rw [blockOf_start] at hstart
  rw [blockOf_stop] at hstop
  omega

theorem holds_of_lastAround (hcuts : cuts p = before ++ after)
    (hbefore : ∀ c ∈ before, (c.1 : Int) ≤ place) {b : Block}
    (hb : lastAround p place before = some b) :
  b ∈ (build p).blockList ∧ b.start ≤ place ∧ place ≤ b.stop
  := by
  obtain ⟨c, hc, hb⟩ := Option.bind_eq_some_iff.mp hb
  have hmem := List.mem_of_getLast? hc
  split at hb
  · cases hb
  · next hstop =>
    obtain rfl := Option.some.inj hb
    rw [blockList_build, hcuts]
    exact ⟨List.mem_map_of_mem (List.mem_append_left _ hmem), hbefore c hmem,
      Int.not_lt.mp hstop⟩

theorem isSome_lastAround_iff (hcuts : cuts p = before ++ after)
    (hbefore : ∀ c ∈ before, (c.1 : Int) ≤ place) (hafter : ∀ c ∈ after, place < c.1) :
  (lastAround p place before).isSome ↔ 0 ≤ place ∧ place < p.length
  := by
  constructor
  · intro h
    obtain ⟨b, hb⟩ := Option.isSome_iff_exists.mp h
    obtain ⟨hmem, hstart, hstop⟩ := holds_of_lastAround hcuts hbefore hb
    exact lt_length_of_holds hmem hstart hstop
  · rintro ⟨hle, hlt⟩
    obtain ⟨n, rfl⟩ := Int.eq_ofNat_of_zero_le hle
    obtain ⟨c, hc, hn⟩ := exists_last_of_lt hcuts (by omega) hbefore hafter
    rw [lastAround, hc, Option.bind_some, if_neg (by omega)]
    rfl

/-- What is left after the stretches that start behind a place is the one block that holds it. -/
theorem lastAround_eq_some_iff (hcuts : cuts p = before ++ after)
    (hbefore : ∀ c ∈ before, (c.1 : Int) ≤ place) (hafter : ∀ c ∈ after, place < c.1)
    {b : Block} :
  lastAround p place before = some b
    ↔ b ∈ (build p).blockList ∧ b.start ≤ place ∧ place ≤ b.stop
  := by
  refine ⟨holds_of_lastAround hcuts hbefore, ?_⟩
  rintro ⟨hmem, hstart, hstop⟩
  have hrange := lt_length_of_holds hmem hstart hstop
  obtain ⟨b', hb'⟩ :=
    Option.isSome_iff_exists.mp ((isSome_lastAround_iff hcuts hbefore hafter).mpr hrange)
  obtain ⟨hmem', hplace'⟩ := holds_of_lastAround hcuts hbefore hb'
  obtain ⟨n, rfl⟩ := Int.eq_ofNat_of_zero_le hrange.1
  rw [hb', eq_of_holds hmem' hmem hplace' ⟨hstart, hstop⟩]

/-! ### Where distances wrap around -/

/-- What a search finds is right: a block exactly if the place is one of the program's, and then the
one block that holds the place. -/
def IsAround (p : Program) (place : Int) (found : Option Block) : Prop :=
  (found.isSome ↔ 0 ≤ place ∧ place < p.length)
    ∧ ∀ b, found = some b ↔ b ∈ (build p).blockList ∧ b.start ≤ place ∧ place ≤ b.stop

/-- The block in the middle of the order starts less than half the words behind a place. -/
def MiddleInReach (p : Program) (place : Int) : Prop :=
  ∀ b, (build p).blockList[(build p).blockList.length / 2]? = some b → b.start - place < Word.half

theorem isAround_lastAround (hcuts : cuts p = before ++ after)
    (hbefore : ∀ c ∈ before, (c.1 : Int) ≤ place) (hafter : ∀ c ∈ after, place < c.1) :
  IsAround p place (lastAround p place before)
  := ⟨isSome_lastAround_iff hcuts hbefore hafter, fun _ =>
    lastAround_eq_some_iff hcuts hbefore hafter⟩

theorem inReach_of_nonneg (hsize : p.length ≤ Word.half) (hword : Word.holds place)
    (hplace : 0 ≤ place) :
  InReach p place
  := by
  intro c hc
  have := start_lt_length hc
  rw [Word.holds, decide_eq_true_iff] at hword
  apply Word.minus_of_holds
  rw [Word.holds, decide_eq_true_iff]
  omega

theorem middleInReach_iff :
  MiddleInReach p place
    ↔ ∀ h : (cuts p).length / 2 < (cuts p).length,
        ((cuts p)[(cuts p).length / 2].1 : Int) - place < Word.half
  := by
  rw [MiddleInReach, blockList_build, List.length_map, List.getElem?_map]
  constructor
  · intro h hmiddle
    rw [List.getElem?_eq_getElem hmiddle] at h
    exact h _ rfl
  · rintro h b hb
    obtain ⟨c, hc, rfl⟩ := Option.map_eq_some_iff.mp hb
    obtain ⟨hmiddle, rfl⟩ := List.getElem?_eq_some_iff.mp hc
    exact h hmiddle

/-- From the length of the program behind the least word on, no block is out of reach. -/
theorem middleInReach_of_le (hplace : (p.length : Int) - Word.half ≤ place) :
  MiddleInReach p place
  := by
  rw [middleInReach_iff]
  intro hmiddle
  have := start_lt_length (List.getElem_mem hmiddle)
  omega

section Before

variable (hsize : p.length ≤ Word.half) (hword : Word.holds place) (hplace : place < 0)

include hsize hword hplace

/-- From a place before the program, the distance to a block is negative exactly if it has wrapped
around, and it is never zero. -/
theorem minus_before {c : Nat × Nat} (hc : c ∈ cuts p) :
  (Word.minus c.1 place < 0 ↔ (Word.half : Int) ≤ c.1 - place) ∧ Word.minus c.1 place ≠ 0
  := by
  have := start_lt_length hc
  have hcount : (Word.count : Int) = 2 * Word.half := rfl
  rw [Word.holds, decide_eq_true_iff] at hword
  by_cases h : (Word.half : Int) ≤ c.1 - place
  · rw [Word.minus_of_half_le h (by omega)]
    omega
  · rw [Word.minus_of_holds (by rw [Word.holds, decide_eq_true_iff]; omega)]
    omega

theorem startsAt?_before (n : Nat) :
  (build p).startsAt? place n = some false
  := by
  rw [startsAt?, build_order, List.getElem?_map]
  cases hc : (cuts p)[n]? with
  | none => rfl
  | some c =>
      have hmem := List.mem_of_getElem? hc
      have hne := (minus_before hsize hword hplace hmem).2
      rw [Option.map_some]
      dsimp only
      rw [distance?_build hmem, Option.map_some, beq_eq_false_iff_ne.mpr hne]

/-- No block is taken to start at the place, so that the one before those found is the last. -/
theorem lastBefore?_before {n : Nat}
    (hn : searchOrder? ((build p).distance? place) (build p).order 0 (build p).order.length
      = some n) :
  (build p).lastBefore? place = some ((n : Int) - 1)
  := by
  rw [lastBefore?, hn, Option.bind_eq_bind, Option.bind_some, startsAt?_before hsize hword hplace]
  rfl

/-- If the block in the middle is in reach, so are those before it, and the search goes on among
them only. -/
theorem search?_of_middleInReach (hmiddle : MiddleInReach p place) :
  (build p).search? place = some none
  := by
  rw [middleInReach_iff] at hmiddle
  have hreach : ∀ i ≤ (cuts p).length / 2, i < (cuts p).length →
      ∃ d, (build p).order[i]?.bind ((build p).distance? place) = some d ∧ (d < 0 ↔ i < 0) := by
    intro i hi hlt
    have hle : (cuts p)[i].1 ≤ (cuts p)[(cuts p).length / 2].1 := by
      obtain rfl | h := Nat.eq_or_lt_of_le hi
      · apply Nat.le_refl
      · exact Nat.le_of_lt (List.pairwise_iff_getElem.mp (cuts_pairwise p) _ _ hlt (by omega) h)
    have hmiddle := hmiddle (by omega)
    refine ⟨_, order_bind_distance? hlt, ?_⟩
    rw [(minus_before hsize hword hplace (List.getElem_mem hlt)).1]
    omega
  have hsearch : searchOrder? ((build p).distance? place) (build p).order 0 (build p).order.length
      = some 0 := by
    rw [length_order_build, searchOrder?]
    by_cases hpos : 0 < (cuts p).length
    · obtain ⟨d, hd, hiff⟩ := hreach ((cuts p).length / 2) (Nat.le_refl _) (by omega)
      rw [if_pos hpos, Nat.zero_add]
      dsimp only
      rw [hd]
      dsimp only
      rw [if_neg (by omega)]
      apply searchOrder?_eq _ (Nat.le_refl _) (Nat.zero_le _)
      intro i hi
      apply hreach i (by omega) (by omega)
    · rw [if_neg hpos]
  rw [search?, lastBefore?_before hsize hword hplace hsearch]
  rfl

/-- If the block in the middle is out of reach, the search goes on behind it and finds a block. -/
theorem exists_search?_of_not_middleInReach (hmiddle : ¬ MiddleInReach p place) :
  ∃ b, (build p).search? place = some (some b)
  := by
  rw [middleInReach_iff, not_forall] at hmiddle
  obtain ⟨hlt, hfar⟩ := hmiddle
  rw [Int.not_lt] at hfar
  have hdistance : ∀ i < (cuts p).length,
      ∃ d, (build p).order[i]?.bind ((build p).distance? place) = some d := by
    intro i hi
    exact ⟨_, order_bind_distance? hi⟩
  have hneg := (minus_before hsize hword hplace (List.getElem_mem hlt)).1.mpr hfar
  have hbehind : (cuts p).length / 2 + 1 ≤ (cuts p).length := by omega
  obtain ⟨n, hlow, hhigh, hn⟩ := exists_searchOrder? hdistance hbehind
  have hsearch : searchOrder? ((build p).distance? place) (build p).order 0 (build p).order.length
      = some n := by
    rw [length_order_build, searchOrder?, if_pos (by omega), Nat.zero_add]
    dsimp only
    rw [order_bind_distance? hlt]
    dsimp only
    rw [if_pos hneg, hn]
  have hlast : n - 1 < (cuts p).length := by omega
  use blockOf p (cuts p)[n - 1]
  have hblock : (build p).order[n - 1]?.bind (build p).block?
      = some (blockOf p (cuts p)[n - 1]) := by
    rw [build_order, List.getElem?_map, List.getElem?_eq_getElem hlast]
    apply block?_build (List.getElem_mem hlast)
  have hnumber : ((n : Int) - 1).toNat = n - 1 := by omega
  rw [search?, lastBefore?_before hsize hword hplace hsearch, Option.bind_eq_bind, Option.bind_some,
    length_order_build, if_neg (by omega), hnumber, hblock, Option.bind_eq_bind, Option.bind_some,
    if_neg (by rw [blockOf_stop]; omega)]
  rfl

end Before

end Build

/-- For every word as a place the search comes to an end.  It finds a block exactly if the place is
one of the program's, and this is the one block that holds the place, unless the block in the middle
starts so far behind the place that the distance wraps around.  In that case, the place is before
the program and the search finds a block all the same. -/
theorem search_finds_holding_block (p : Program) {place : Int} (hsize : p.length ≤ Word.half)
    (hword : Word.holds place) :
  ∃ found, (build p).search? place = some found
    ∧ (MiddleInReach p place → IsAround p place found)
    ∧ (¬ MiddleInReach p place → place < 0 ∧ found.isSome)
  := by
  obtain ⟨before, after, hcuts, hbefore, hafter⟩ := exists_split_cuts p place
  have haround := isAround_lastAround hcuts hbefore hafter
  by_cases hplace : 0 ≤ place
  · have hreach := inReach_of_nonneg hsize hword hplace
    use lastAround p place before, search?_build hreach hcuts hbefore hafter
    use fun _ => haround
    intro hmiddle
    rw [middleInReach_iff, not_forall] at hmiddle
    obtain ⟨hlt, hfar⟩ := hmiddle
    have := start_lt_length (List.getElem_mem hlt)
    omega
  · rw [Int.not_le] at hplace
    by_cases hmiddle : MiddleInReach p place
    · use none, search?_of_middleInReach hsize hword hplace hmiddle
      have hnone : lastAround p place before = none := by
        rw [← Option.not_isSome_iff_eq_none, haround.1]
        omega
      rw [hnone] at haround
      exact ⟨fun _ => haround, fun h => absurd hmiddle h⟩
    · obtain ⟨b, hb⟩ := exists_search?_of_not_middleInReach hsize hword hplace hmiddle
      exact ⟨some b, hb, fun h => absurd h hmiddle, fun _ => ⟨hplace, rfl⟩⟩

/-- The block of a single instruction is found at its place. -/
theorem singleInstr_found :
  [({ kind := .print } : Instr)].length ≤ Word.half ∧ Word.holds 0
    ∧ ∃ found, (build [{ kind := .print }]).search? 0 = some found
      ∧ IsAround [{ kind := .print }] 0 found
  := by
  have hsize : [({ kind := .print } : Instr)].length ≤ Word.half := by decide
  have hword : Word.holds 0 := by decide
  obtain ⟨found, hfound, haround, -⟩ := search_finds_holding_block _ hsize hword
  exact ⟨hsize, hword, found, hfound, haround (middleInReach_of_le (by decide))⟩

/-- At the least word, what the search finds for a single instruction is not right. -/
theorem leastWord_not_around :
  Word.holds (-Word.half)
    ∧ ¬ ∃ found, (build [{ kind := .print }]).search? (-Word.half) = some found
      ∧ IsAround [{ kind := .print }] (-Word.half) found
  := by
  have hword : Word.holds (-Word.half) := by decide
  use hword
  rintro ⟨found, hfound, haround⟩
  have hcuts : cuts [{ kind := .print }] = [(0, 0)] := by decide +kernel
  have hmiddle : ¬ MiddleInReach [{ kind := .print }] (-Word.half) := by
    rw [middleInReach_iff]
    simp only [hcuts]
    intro h
    have hlt : (0 : Int) - -Word.half < Word.half := h (by decide)
    exact absurd hlt (by decide)
  obtain ⟨b, hb⟩ :=
    exists_search?_of_not_middleInReach (by decide) hword (by decide) hmiddle
  obtain rfl : some b = found := Option.some.inj (hb.symm.trans hfound)
  exact absurd (haround.1.mp rfl).1 (by decide)

/-- Where no distance wraps around, the search finds what looking through all blocks finds. -/
theorem search?_eq_blockAt? {p : Program} {place : Int} (hreach : InReach p place) :
  (build p).search? place = some ((build p).blockAt? place)
  := by
  obtain ⟨before, after, hcuts, hbefore, hafter⟩ := exists_split_cuts p place
  rw [search?_build hreach hcuts hbefore hafter]
  congr 1
  cases hat : (build p).blockAt? place with
  | some b =>
      have hholds := List.find?_some hat
      rw [Bool.and_eq_true, decide_eq_true_iff, decide_eq_true_iff] at hholds
      exact (lastAround_eq_some_iff hcuts hbefore hafter).mpr
        ⟨List.mem_of_find?_eq_some hat, hholds⟩
  | none =>
      rw [Option.eq_none_iff_forall_ne_some]
      intro b hb
      obtain ⟨hmem, hholds⟩ := holds_of_lastAround hcuts hbefore hb
      apply List.find?_eq_none.mp hat b hmem
      rw [Bool.and_eq_true, decide_eq_true_iff, decide_eq_true_iff]
      exact hholds

end Graph

end ThreeAddress
