import Mathlib.Data.List.DropRight
import Mathlib.Tactic.Common
import ThreeAddress.Source.FileSet

/-!
# Lines and positions

The index of a file holds the offsets of its newlines in ascending order.  Before an offset there
are as many newlines as there are smaller entries in the index, which is what the search finds.  A
line stands between two newlines or at an end of the content, so that two neighbours in the index
give its ends.  In a file that is shorter than the largest word nothing on the way wraps around.
-/

namespace ThreeAddress

theorem toNat_toUInt32 {n m : Nat} (hn : n ≤ m) (hm : m < UInt32.size) :
  n.toUInt32.toNat = n
  := by
  rw [Nat.toUInt32_eq, UInt32.toNat_ofNat_of_lt']
  exact Nat.lt_of_le_of_lt hn hm

theorem drop_of_append {t a b : Text} {n : Nat} (h : t.drop n = a ++ b) :
  t.drop (n + a.length) = b
  := by
  rw [← List.drop_drop, h, List.drop_left]

theorem File.slice_of_append {f : File} {a b : Text} {n : Nat} (h : f.content.drop n = a ++ b) :
  f.slice n (n + a.length) = a
  := by
  rw [slice, h, Nat.add_sub_cancel_left, List.take_left]

/-! ### Lines of a text -/

namespace Text

/-- Line `n` of a text, counted from one, without its newline; empty if there is no such line. -/
def nthLine (t : Text) : (n : Nat) → Text
  | 0 => []
  | k + 1 => (t.splitOn 10).getD k []

/-- What stands before a line is empty or ends in a newline, and what stands behind it is empty or
starts with one. -/
structure IsLine (front line back : Text) : Prop where
  front_eq : front = [] ∨ ∃ front', front = front' ++ [10]
  inside : 10 ∉ line
  back_eq : back = [] ∨ ∃ back', back = 10 :: back'

theorem length_splitOn (t : Text) :
  (t.splitOn 10).length = List.count 10 t + 1
  := by
  induction t with
  | nil => rfl
  | cons b t ih =>
      rw [List.splitOn_cons_eq_if_modifyHead, List.count_cons]
      split
      · rw [List.length_cons, ih]
      · rw [List.length_modifyHead, ih, Nat.add_zero]

/-- Piece `k` of a text is a line with `k` newlines before it. -/
theorem exists_isLine {t line : Text} {k : Nat} (h : (t.splitOn 10)[k]? = some line) :
  ∃ front back, t = front ++ (line ++ back) ∧ List.count 10 front = k ∧ IsLine front line back
  := by
  induction k generalizing t with
  | zero =>
      by_cases ht : 10 ∈ t
      · obtain ⟨first, rest, rfl, hfirst⟩ := List.eq_append_cons_of_mem ht
        rw [List.splitOn_append_cons_self_of_not_mem hfirst] at h
        obtain rfl : first = line := Option.some.inj h
        exact ⟨[], 10 :: rest, rfl, rfl, .inl rfl, hfirst, .inr ⟨rest, rfl⟩⟩
      · rw [List.splitOn_eq_singleton ht] at h
        obtain rfl : t = line := Option.some.inj h
        exact ⟨[], [], by simp, rfl, .inl rfl, ht, .inl rfl⟩
  | succ k ih =>
      by_cases ht : 10 ∈ t
      · obtain ⟨first, rest, rfl, hfirst⟩ := List.eq_append_cons_of_mem ht
        rw [List.splitOn_append_cons_self_of_not_mem hfirst, List.getElem?_cons_succ] at h
        obtain ⟨front, back, rfl, hcount, hline⟩ := ih h
        refine ⟨first ++ 10 :: front, back, by simp, ?_, ?_, hline.inside, hline.back_eq⟩
        · rw [List.count_append, List.count_eq_zero.mpr hfirst, List.count_cons_self, hcount,
            Nat.zero_add]
        · obtain rfl | ⟨front', rfl⟩ := hline.front_eq
          · exact .inr ⟨first, rfl⟩
          · exact .inr ⟨first ++ 10 :: front', by simp⟩
      · rw [List.splitOn_eq_singleton ht] at h
        cases h

theorem count_lt_count (front back : Text) :
  List.count 10 front < List.count 10 (front ++ 10 :: back)
  := by
  rw [List.count_append, List.count_cons_self]
  omega

theorem exists_last_newline {t : Text} (ht : 10 ∈ t) :
  ∃ front last, t = front ++ 10 :: last ∧ 10 ∉ last
  := by
  obtain ⟨last, front, hsplit, hlast⟩ := List.eq_append_cons_of_mem (List.mem_reverse.mpr ht)
  refine ⟨front.reverse, last.reverse, ?_, by simpa using hlast⟩
  rw [← List.reverse_reverse t, hsplit]
  simp

theorem bne_newline {t : Text} (ht : 10 ∉ t) :
  ∀ b ∈ t, (b != 10) = true
  := by
  intro b hb
  rw [bne_iff_ne]
  rintro rfl
  exact ht hb

theorem rtakeWhile_newline {front last : Text} (hlast : 10 ∉ last) :
  (front ++ 10 :: last).rtakeWhile (· != 10) = last
  := by
  have hall : ∀ b ∈ last.reverse, (b != 10) = true := bne_newline (mt List.mem_reverse.mp hlast)
  rw [List.rtakeWhile, List.reverse_append, List.reverse_cons, List.append_assoc,
    List.takeWhile_append_of_pos hall]
  simp

end Text

/-! ### The index of newlines -/

namespace File

theorem newlineOffsets_append (start : Nat) (s t : Text) :
  newlineOffsets start (s ++ t) = newlineOffsets start s ++ newlineOffsets (start + s.length) t
  := by
  induction s generalizing start with
  | nil => rfl
  | cons b s ih =>
      rw [List.cons_append, newlineOffsets, newlineOffsets, ih, List.length_cons, Nat.add_assoc,
        Nat.add_comm 1]
      split
      · rfl
      · rfl

theorem length_newlineOffsets (start : Nat) (t : Text) :
  (newlineOffsets start t).length = List.count 10 t
  := by
  induction t generalizing start with
  | nil => rfl
  | cons b t ih =>
      rw [newlineOffsets, List.count_cons]
      split
      · next hb => rw [List.length_cons, ih, if_pos (beq_iff_eq.mpr hb)]
      · next hb => rw [ih, if_neg (mt beq_iff_eq.mp hb), Nat.add_zero]

/-- The offsets of newlines lie inside the text. -/
theorem mem_newlineOffsets {start : Nat} {t : Text} (hsize : start + t.length ≤ UInt32.size)
    {x : UInt32} (hx : x ∈ newlineOffsets start t) :
  start ≤ x.toNat ∧ x.toNat < start + t.length
  := by
  induction t generalizing start with
  | nil => cases hx
  | cons b t ih =>
      rw [List.length_cons] at hsize ⊢
      have hrest : x ∈ newlineOffsets (start + 1) t →
          start ≤ x.toNat ∧ x.toNat < start + (t.length + 1) := by
        intro h
        have := ih (by omega) h
        omega
      rw [newlineOffsets] at hx
      split at hx
      · obtain rfl | hx := List.mem_cons.mp hx
        · rw [toNat_toUInt32 (Nat.le_refl start) (by omega)]
          omega
        · exact hrest hx
      · exact hrest hx

/-- The index of a file is that of its content. -/
def Indexed (f : File) : Prop := f.newlines = (newlineOffsets 0 f.content).toArray

section Indexed

variable {f : File} {front back : Text}

theorem Indexed.size_newlines (hf : f.Indexed) :
  f.newlines.size = List.count 10 f.content
  := by
  rw [hf, List.size_toArray, length_newlineOffsets]

theorem Indexed.lt_size_newlines_iff (hf : f.Indexed) (hsize : f.content.length < UInt32.size)
    {i : UInt32} :
  i < f.newlines.size.toUInt32 ↔ i.toNat < List.count 10 f.content
  := by
  rw [UInt32.lt_iff_toNat_lt, hf.size_newlines, toNat_toUInt32 List.count_le_length hsize]

/-- Every newline has its offset in the index, behind those of the newlines before it. -/
theorem Indexed.getElem?_newlines (hf : f.Indexed) (hcontent : f.content = front ++ 10 :: back) :
  f.newlines[List.count 10 front]? = some front.length.toUInt32
  := by
  rw [hf, List.getElem?_toArray, hcontent, newlineOffsets_append,
    List.getElem?_append_right (by rw [length_newlineOffsets]), length_newlineOffsets, Nat.sub_self,
    Nat.zero_add]
  rfl

/-! ### Searching -/

/-- Where the entries below an offset come first in an index, the search finds how many there are.
It keeps their end between the two bounds. -/
theorem searchBelow_eq {index : Array UInt32} {offset : UInt32} {below above : List UInt32}
    (hindex : index.toList = below ++ above) (hbelow : ∀ x ∈ below, x < offset)
    (habove : ∀ x ∈ above, ¬ x < offset) {low high : Nat} (hlow : low ≤ below.length)
    (hhigh : below.length ≤ high) (hsize : high ≤ index.size) :
  searchBelow index offset low high = below.length
  := by
  have hentry : ∀ i < index.size, index.getD i 0 < offset ↔ i < below.length := by
    intro i hi
    have hlength : i < (below ++ above).length := by
      rw [← hindex, Array.length_toList]
      exact hi
    have hget : index.getD i 0 = (below ++ above)[i] := by
      simp [← hindex, hi]
    rw [hget]
    by_cases h : i < below.length
    · rw [List.getElem_append_left h]
      exact iff_of_true (hbelow _ (List.getElem_mem h)) h
    · rw [List.getElem_append_right (Nat.le_of_not_lt h)]
      exact iff_of_false (habove _ (List.getElem_mem _)) h
  fun_induction searchBelow with
  | case1 low high hlt middle hmiddle ih =>
      have := (hentry middle (by omega)).mp hmiddle
      apply ih (by omega) hhigh hsize
  | case2 low high hlt middle hmiddle ih =>
      have := mt (hentry middle (by omega)).mpr hmiddle
      apply ih hlow (by omega) (by omega)
  | case3 low high hge => omega

theorem Indexed.linesBefore_eq (hf : f.Indexed) (hsize : f.content.length ≤ UInt32.size)
    (hcontent : f.content = front ++ back) {offset : UInt32}
    (hoffset : offset.toNat = front.length) :
  f.linesBefore offset = List.count 10 front
  := by
  have hlength : front.length + back.length = f.content.length := by
    rw [hcontent, List.length_append]
  have hindex : f.newlines.toList = newlineOffsets 0 front ++ newlineOffsets front.length back := by
    rw [hf, hcontent, newlineOffsets_append, Nat.zero_add]
  rw [linesBefore, ← length_newlineOffsets 0 front]
  apply searchBelow_eq hindex
  · intro x hx
    have := mem_newlineOffsets (by omega) hx
    rw [UInt32.lt_iff_toNat_lt]
    omega
  · intro x hx
    have := mem_newlineOffsets (by omega) hx
    rw [UInt32.lt_iff_toNat_lt]
    omega
  · apply Nat.zero_le
  · rw [← Array.length_toList, hindex, List.length_append]
    apply Nat.le_add_right
  · apply Nat.le_refl

/-! ### Positions -/

/-- The position of an offset as the text before it tells it: the line is one more than the newlines
there, and the column one more than the bytes since the last of them. -/
structure PositionAt (f : File) (offset : UInt32) (p : Position) : Prop where
  line_eq : p.line.toNat = 1 + List.count 10 (f.content.take offset.toNat)
  column_eq : p.column.toNat = 1 + ((f.content.take offset.toNat).rtakeWhile (· != 10)).length

variable {offset : UInt32}

theorem Indexed.positionAt (hf : f.Indexed) (hsize : f.content.length + 1 < UInt32.size)
    (hoffset : offset.toNat ≤ f.content.length) :
  f.PositionAt offset (f.position offset)
  := by
  have hlength : (f.content.take offset.toNat).length = offset.toNat :=
    List.length_take_of_le hoffset
  have hlines := hf.linesBefore_eq (by omega) (List.take_append_drop offset.toNat f.content).symm
    hlength.symm
  by_cases hnewline : 10 ∈ f.content.take offset.toNat
  · obtain ⟨front, last, hfront, hlast⟩ := Text.exists_last_newline hnewline
    have hcontent : f.content = front ++ 10 :: (last ++ f.content.drop offset.toNat) := by
      rw [← List.cons_append, ← List.append_assoc, ← hfront, List.take_append_drop]
    have hcount : List.count 10 (f.content.take offset.toNat) = List.count 10 front + 1 := by
      rw [hfront, List.count_append, List.count_cons_self, List.count_eq_zero.mpr hlast]
    have hwhole : offset.toNat = front.length + (last.length + 1) := by
      rw [← hlength, hfront, List.length_append, List.length_cons]
    have hle := List.count_le_length (a := (10 : UInt8)) (l := front)
    have hstart : f.newlines.getD (List.count 10 front) 0 = front.length.toUInt32 := by
      rw [Array.getD_eq_getD_getElem?, hf.getElem?_newlines hcontent]
      rfl
    have hfrontLength : front.length.toUInt32.toNat = front.length :=
      toNat_toUInt32 (m := f.content.length) (by omega) (by omega)
    have hposition : f.position offset = ⟨(List.count 10 front + 2).toUInt32,
        offset - (front.length.toUInt32 + 1) + 1⟩ := by
      rw [position, hlines, hcount]
      dsimp only
      rw [hstart]
    rw [hposition]
    constructor
    · rw [hcount, toNat_toUInt32 (Nat.le_refl _) (by omega)]
      omega
    · rw [hfront, Text.rtakeWhile_newline hlast]
      have hword : UInt32.size = 2 ^ 32 := rfl
      rw [UInt32.toNat_add, UInt32.toNat_sub, UInt32.toNat_add, hfrontLength, UInt32.toNat_one]
      omega
  · have hcount := List.count_eq_zero.mpr hnewline
    have hposition : f.position offset = ⟨1, offset + 1⟩ := by
      rw [position, hlines, hcount]
    rw [hposition]
    constructor
    · rw [hcount]
      rfl
    · have hall :
          (f.content.take offset.toNat).rtakeWhile (· != 10) = f.content.take offset.toNat := by
        rw [List.rtakeWhile_eq_self_iff]
        exact Text.bne_newline hnewline
      have hword : UInt32.size = 2 ^ 32 := rfl
      rw [hall, hlength, UInt32.toNat_add, UInt32.toNat_one]
      omega

/-- Different offsets have different positions. -/
theorem Indexed.position_injective (hf : f.Indexed) (hsize : f.content.length + 1 < UInt32.size)
    {offset' : UInt32} (hoffset : offset.toNat ≤ f.content.length)
    (hoffset' : offset'.toNat ≤ f.content.length) (h : f.position offset = f.position offset') :
  offset = offset'
  := by
  have hlines : f.linesBefore offset = f.linesBefore offset' := by
    have hline := (hf.positionAt hsize hoffset).line_eq
    have hline' := (hf.positionAt hsize hoffset').line_eq
    rw [hf.linesBefore_eq (by omega) (List.take_append_drop offset.toNat f.content).symm
        (List.length_take_of_le hoffset).symm,
      hf.linesBefore_eq (by omega) (List.take_append_drop offset'.toNat f.content).symm
        (List.length_take_of_le hoffset').symm]
    rw [h] at hline
    omega
  rw [position, position, hlines] at h
  split at h
  · simpa using congrArg Position.column h
  · simpa using congrArg Position.column h

end Indexed

/-! ### Lines -/

end File

/-- Sums and differences that are words are made exactly. -/
structure WordArithmetic.Exact (w : WordArithmetic) : Prop where
  add : ∀ a b : UInt32, a.toNat + b.toNat < UInt32.size → w.add? a b = some (a + b)
  sub : ∀ a b : UInt32, b ≤ a → w.sub? a b = some (a - b)

theorem WordArithmetic.exact_wrapping :
  wrapping.Exact
  := ⟨fun _ _ _ => rfl, fun _ _ _ => rfl⟩

theorem WordArithmetic.exact_checked :
  checked.Exact
  := by
  constructor
  · intro a b h
    have hle : a ≤ a + b := by
      rw [UInt32.le_iff_toNat_le, UInt32.toNat_add, Nat.mod_eq_of_lt h]
      apply Nat.le_add_right
    exact if_pos hle
  · intro a b h
    exact if_pos h

namespace File

section Lines

variable {f : File} {front line back : Text} {w : WordArithmetic}

theorem slice?_of_append (hsize : f.content.length < UInt32.size)
    (hcontent : f.content = front ++ (line ++ back)) :
  f.slice? front.length.toUInt32 (front.length + line.length).toUInt32 = some line
  := by
  have hlength : front.length + line.length + back.length = f.content.length := by
    rw [hcontent, List.length_append, List.length_append, Nat.add_assoc]
  have hstart : front.length.toUInt32.toNat = front.length :=
    toNat_toUInt32 (m := f.content.length) (by omega) hsize
  have hstop : (front.length + line.length).toUInt32.toNat = front.length + line.length :=
    toNat_toUInt32 (by omega) hsize
  have hdrop : f.content.drop front.length = line ++ back := by
    rw [hcontent, List.drop_left]
  rw [slice?, if_pos, hstart, hstop, slice_of_append hdrop]
  rw [UInt32.le_iff_toNat_le, hstart, hstop]
  omega

/-- A line ends at the next newline or at the end of the content. -/
theorem Indexed.lineStop?_eq (hf : f.Indexed) (hw : w.Exact) (hsize : f.content.length < UInt32.size)
    (hcontent : f.content = front ++ (line ++ back)) (hline : Text.IsLine front line back)
    {n : UInt32} (hn : n.toNat = List.count 10 front + 1) :
  f.lineStop? w n = some (front.length + line.length).toUInt32
  := by
  have hcount : List.count 10 (front ++ line) = List.count 10 front := by
    rw [List.count_append, List.count_eq_zero.mpr hline.inside, Nat.add_zero]
  have hone : 1 ≤ n := by
    rw [UInt32.le_iff_toNat_le, hn, UInt32.toNat_one]
    apply Nat.le_add_left
  have hnewline : (n - 1).toNat = List.count 10 (front ++ line) := by
    rw [UInt32.toNat_sub_of_le _ _ hone, hn, hcount, UInt32.toNat_one, Nat.add_sub_cancel]
  rw [← List.append_assoc] at hcontent
  rw [lineStop?, hw.sub n 1 hone]
  change (if n - 1 < f.newlines.size.toUInt32 then f.newlines[(n - 1).toNat]?
    else some f.content.length.toUInt32) = _
  obtain rfl | ⟨back', rfl⟩ := hline.back_eq
  · rw [List.append_nil] at hcontent
    have hlast : ¬ n - 1 < f.newlines.size.toUInt32 := by
      rw [hf.lt_size_newlines_iff hsize, hnewline, hcontent]
      apply Nat.lt_irrefl
    rw [if_neg hlast, hcontent, List.length_append]
  · have hnext : n - 1 < f.newlines.size.toUInt32 := by
      rw [hf.lt_size_newlines_iff hsize, hnewline, hcontent]
      apply Text.count_lt_count
    rw [if_pos hnext, hnewline, hf.getElem?_newlines hcontent, List.length_append]

/-- From where a line starts, it is found. -/
theorem Indexed.lineFrom?_eq (hf : f.Indexed) (hw : w.Exact) (hsize : f.content.length < UInt32.size)
    (hcontent : f.content = front ++ (line ++ back)) (hline : Text.IsLine front line back)
    {n : UInt32} (hn : n.toNat = List.count 10 front + 1) :
  f.lineFrom? w n front.length.toUInt32 = some line
  := by
  have hlength : front.length ≤ f.content.length := by
    rw [hcontent, List.length_append]
    apply Nat.le_add_right
  have hstart : ¬ f.content.length.toUInt32 < front.length.toUInt32 := by
    rw [UInt32.lt_iff_toNat_lt, toNat_toUInt32 (Nat.le_refl _) hsize, toNat_toUInt32 hlength hsize]
    exact Nat.not_lt_of_le hlength
  rw [lineFrom?, hf.lineStop?_eq hw hsize hcontent hline hn]
  change (if f.content.length.toUInt32 < front.length.toUInt32 then some []
    else f.slice? front.length.toUInt32 (front.length + line.length).toUInt32) = _
  rw [if_neg hstart, slice?_of_append hsize hcontent]

/-- From the second line on, a line starts behind the newline before it. -/
theorem lineIn?_of_two_le (hw : w.Exact) {n : UInt32} (hn : 2 ≤ n.toNat) :
  (n - 2).toNat = n.toNat - 2 ∧
    f.lineIn? w n = if n - 2 < f.newlines.size.toUInt32 then
        f.newlines[(n - 2).toNat]?.bind fun newline => (w.add? newline 1).bind (f.lineFrom? w n ·)
      else some []
  := by
  have hzero : n ≠ 0 := by
    rintro rfl
    cases hn
  have hone : n ≠ 1 := by
    rintro rfl
    rw [UInt32.toNat_one] at hn
    omega
  have htwo : 2 ≤ n := UInt32.le_iff_toNat_le.mpr hn
  use UInt32.toNat_sub_of_le _ _ htwo
  rw [lineIn?, if_neg hzero, if_neg hone, hw.sub n 2 htwo]
  rfl

/-- The line with `k` newlines before it is line `k + 1`. -/
theorem Indexed.lineIn?_of_isLine (hf : f.Indexed) (hw : w.Exact)
    (hsize : f.content.length + 1 < UInt32.size) (hcontent : f.content = front ++ (line ++ back))
    (hline : Text.IsLine front line back) {n : UInt32} (hn : n.toNat = List.count 10 front + 1) :
  f.lineIn? w n = some line
  := by
  have hfrom := hf.lineFrom?_eq hw (Nat.lt_of_succ_lt hsize) hcontent hline hn
  obtain rfl | ⟨front', rfl⟩ := hline.front_eq
  · obtain rfl : n = 1 := UInt32.toNat_inj.mp hn
    exact hfrom
  · rw [List.append_assoc, List.singleton_append] at hcontent
    rw [List.count_append, List.count_singleton_self] at hn
    have hlength : front'.length + 1 ≤ f.content.length := by
      rw [hcontent, List.length_append, List.length_cons]
      omega
    obtain ⟨hnewline, hlineIn⟩ := f.lineIn?_of_two_le hw (n := n) (by omega)
    have hplace : (n - 2).toNat = List.count 10 front' := by omega
    have hbefore : n - 2 < f.newlines.size.toUInt32 := by
      rw [hf.lt_size_newlines_iff (by omega), hplace, hcontent]
      apply Text.count_lt_count
    have hstart : w.add? front'.length.toUInt32 1 = some (front' ++ [10]).length.toUInt32 := by
      have hnat : front'.length.toUInt32.toNat = front'.length :=
        toNat_toUInt32 (m := f.content.length) (by omega) (by omega)
      rw [hw.add _ _ (by rw [hnat, UInt32.toNat_one]; omega), List.length_append]
      simp
    rw [hlineIn, if_pos hbefore, hplace, hf.getElem?_newlines hcontent, Option.bind_some, hstart,
      Option.bind_some]
    exact hfrom

/-- Behind the last line nothing is found. -/
theorem Indexed.lineIn?_of_lt (hf : f.Indexed) (hw : w.Exact) (hsize : f.content.length < UInt32.size)
    {n : UInt32} (hn : List.count 10 f.content + 1 < n.toNat) :
  f.lineIn? w n = some []
  := by
  obtain ⟨hnewline, hlineIn⟩ := f.lineIn?_of_two_le hw (n := n) (by omega)
  have hbehind : ¬ n - 2 < f.newlines.size.toUInt32 := by
    rw [hf.lt_size_newlines_iff hsize, hnewline]
    omega
  rw [hlineIn, if_neg hbehind]

end Lines

/-- The lines of a file are those of its content, whatever the arithmetic does with sums and
differences that are no words. -/
theorem Indexed.lineIn?_eq {f : File} {w : WordArithmetic} (hf : f.Indexed) (hw : w.Exact)
    (hsize : f.content.length + 1 < UInt32.size) (n : UInt32) :
  f.lineIn? w n = some (f.content.nthLine n.toNat)
  := by
  have hpieces := Text.length_splitOn f.content
  cases hn : n.toNat with
  | zero =>
      rw [lineIn?, if_pos (UInt32.toNat_inj.mp hn)]
      rfl
  | succ k =>
      rw [Text.nthLine, List.getD_eq_getElem?_getD]
      cases hpiece : (f.content.splitOn 10)[k]? with
      | none =>
          rw [List.getElem?_eq_none_iff] at hpiece
          exact hf.lineIn?_of_lt hw (by omega) (by omega)
      | some line =>
          obtain ⟨front, back, hcontent, hcount, hline⟩ := Text.exists_isLine hpiece
          exact hf.lineIn?_of_isLine hw hsize hcontent hline (by rw [hn, hcount])

end File

/-! ### Files of a set -/

namespace FileSet

/-- The sets that are made by adding files and by choosing the directory that paths are shown
from. -/
inductive Built : FileSet → Prop
  | empty (baseDir cwd : Text) : Built { baseDir, cwd }
  | add {s : FileSet} (h : Built s) (path content : Text) (flags : Nat) :
    Built (s.add path content flags).1
  | rebase {s : FileSet} (h : Built s) (baseDir : Text) : Built { s with baseDir }

theorem Built.indexed {s : FileSet} (hs : s.Built) :
  ∀ f ∈ s.files, f.Indexed
  := by
  induction hs with
  | empty => simp
  | add h path content flags ih =>
      intro f hf
      obtain hf | rfl := Array.mem_push.mp hf
      · exact ih f hf
      · rfl
  | rebase h baseDir ih => exact ih

/-- What a set tells of a file is what the file's content tells: the positions of a span's ends,
which differ for different offsets, and the lines.  The lines do not change if the program ends
where a sum or difference wraps around, and no index or range is outside the file. -/
structure AgreesWithText (s : FileSet) (id : FileId) (f : File) : Prop where
  resolved : ∀ a b : UInt32, a.toNat ≤ f.content.length → b.toNat ≤ f.content.length →
    ∃ p q, s.resolve? ⟨id, a, b⟩ = some (p, q) ∧ f.PositionAt a p ∧ f.PositionAt b q
  distinct : ∀ a b : UInt32, a.toNat ≤ f.content.length → b.toNat ≤ f.content.length →
    ∀ p, s.resolve? ⟨id, a, b⟩ = some (p, p) → a = b
  lines : ∀ n : UInt32, f.line n.toNat = f.content.nthLine n.toNat
  inside : ∀ n : UInt32, ∀ w ∈ [WordArithmetic.wrapping, WordArithmetic.checked],
    f.lineIn? w n = some (f.content.nthLine n.toNat)

/-- In every set of files, the positions and the lines of a file that is shorter than the largest
word are those of its content. -/
theorem positions_and_lines_agree {s : FileSet} (hs : s.Built) {id : FileId} {f : File}
    (hf : s.get? id = some f) (hsize : f.content.length < UInt32.size - 1) :
  s.AgreesWithText id f
  := by
  have hindexed : f.Indexed := hs.indexed f (Array.mem_of_getElem? hf)
  have hsize' : f.content.length + 1 < UInt32.size := Nat.add_lt_of_lt_sub hsize
  have hresolve : ∀ a b, s.resolve? ⟨id, a, b⟩ = some (f.position a, f.position b) := by
    intro a b
    rw [resolve?, hf]
    rfl
  have hlines : ∀ n, ∀ w ∈ [WordArithmetic.wrapping, WordArithmetic.checked],
      f.lineIn? w n = some (f.content.nthLine n.toNat) := by
    intro n w hw
    apply hindexed.lineIn?_eq _ hsize'
    obtain rfl | hw := List.mem_cons.mp hw
    · exact WordArithmetic.exact_wrapping
    · rw [List.mem_singleton.mp hw]
      exact WordArithmetic.exact_checked
  constructor
  · intro a b ha hb
    exact ⟨_, _, hresolve a b, hindexed.positionAt hsize' ha, hindexed.positionAt hsize' hb⟩
  · intro a b ha hb p hp
    rw [hresolve, Option.some.injEq, Prod.mk.injEq] at hp
    exact hindexed.position_injective hsize' ha hb (hp.1.trans hp.2.symm)
  · intro n
    have hword : n.toNat.toUInt32 = n := by rw [Nat.toUInt32_eq, UInt32.ofNat_toNat]
    rw [File.line, hword, hlines n _ List.mem_cons_self, Option.getD_some]
  · exact hlines

/-- A set with a file of two empty lines and a line without a newline. -/
def blankLines : FileSet := (FileSet.addVirtual {} "blank" "\n\r\na").1

/-- The positions and the lines of the file of `blankLines` are those of its content. -/
theorem blankLines_agree :
  blankLines.Built ∧
    ∃ f, blankLines.get? 0 = some f ∧ f.content = Text.ofString "\n\na"
      ∧ f.content.length < UInt32.size - 1 ∧ blankLines.AgreesWithText 0 f
  := by
  have hbuilt : blankLines.Built := .add (.empty [] "/") _ _ _
  have hsize : (Text.ofString "\n\na").length < UInt32.size - 1 := by decide
  exact ⟨hbuilt, _, rfl, rfl, hsize, positions_and_lines_agree hbuilt rfl hsize⟩

end FileSet

end ThreeAddress
