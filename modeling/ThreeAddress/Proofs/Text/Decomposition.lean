import ThreeAddress.Proofs.Text.Glyphs
import ThreeAddress.Text.Compose

/-!
# Taking characters apart

No code point but a quote or a newline is taken apart into one or put together to one, and a quote
joins with nothing.  This is read off the table of decompositions, which is written as a string.
-/

namespace ThreeAddress

/-! ### Tables written as strings -/

/-- The characters of a string whose last part is a literal, before some more characters. -/
theorem toList_concat {s : String} {part tail cs : List Char}
    (h : s.toList ++ (part ++ tail) = cs) :
  (s ++ String.ofList part).toList ++ tail = cs
  := by
  rw [String.toList_append, String.toList_ofList, List.append_assoc, h]

theorem toList_part {part tail : List Char} :
  (String.ofList part).toList ++ tail = part ++ tail
  := by
  rw [String.toList_ofList]

/-- What holds of every entry that is read from the characters of a string. -/
theorem forall_mem_entries {β : Type} {s : String} {cs : List Char} {read : List Char → β}
    {p : β → Prop} (hs : s.toList ++ [] = cs) (h : ∀ e ∈ (pieces ' ' cs).map read, p e) :
  ∀ e ∈ (pieces ' ' s.toList).map read, p e
  := by
  rw [List.append_nil] at hs
  rw [hs]
  exact h

theorem CodeSet.contains_eq_false {s : CodeSet} {c : Nat} (h : ∀ r ∈ s.ranges, c < r.1) :
  s.contains c = false
  := by
  rw [contains, List.any_eq_false]
  intro r hr
  have hlt := h r hr
  simp only [Bool.and_eq_true, decide_eq_true_eq]
  omega

namespace Compose

/-- A code point that is told apart from a quote and from a newline. -/
def Foreign (c : Nat) : Prop := agree c 34 = false ∧ agree c 10 = false ∧ c < 0x400000

instance (c : Nat) : Decidable (Foreign c) := inferInstanceAs (Decidable (_ ∧ _ ∧ _))

theorem Foreign.isOrdinary {c : Nat} (h : Foreign c) :
  IsOrdinary c
  := by
  obtain ⟨hquote, hline, hlt⟩ := h
  rw [agree, beq_eq_false_iff_ne] at hquote hline
  exact ⟨by omega, by omega, hlt⟩

set_option maxRecDepth 2000 in
/-- No entry of the table has to do with a quote or a newline. -/
theorem foreign_decompositionTable :
  ∀ e ∈ decompositionTable, Foreign e.1 ∧ ∀ c ∈ e.2, Foreign c
  := by
  rw [decompositionTable]
  apply forall_mem_entries
  -- The table is read as a literal list of characters: strings do not reduce well enough.
  · repeat with_reducible apply toList_concat
    apply toList_part
  · decide +kernel

theorem lt_joiningCodes :
  ∀ r ∈ joiningCodes.ranges, 34 < r.1
  := by
  rw [joiningCodes, CodeSet.ofString]
  apply forall_mem_entries
  · repeat with_reducible apply toList_concat
    apply toList_part
  · decide +kernel

theorem lt_markLikeCodes :
  ∀ r ∈ markLikeCodes.ranges, 34 < r.1
  := by
  rw [markLikeCodes, CodeSet.ofString]
  apply forall_mem_entries
  · repeat with_reducible apply toList_concat
    apply toList_part
  · decide +kernel

/-! ### Taking apart and putting together -/

theorem isOrdinary_syllableParts {c : Nat} (h : isSyllable c) :
  ∀ d ∈ syllableParts c, IsOrdinary d
  := by
  have hlt : c - syllableBase < 11172 := by
    simp only [isSyllable, Bool.and_eq_true, decide_eq_true_eq] at h
    omega
  rw [syllableParts]
  generalize c - syllableBase = s at hlt
  have hlead : IsOrdinary (leadBase + s / 588) := by
    rw [leadBase]
    exact isOrdinary_of_le (by omega) (by omega)
  have hvowel : IsOrdinary (vowelBase + s % 588 / 28) := by
    rw [vowelBase]
    exact isOrdinary_of_le (by omega) (by omega)
  have htrail : IsOrdinary (trailBase + s % 28) := by
    rw [trailBase]
    exact isOrdinary_of_le (by omega) (by omega)
  split_ifs
  · simp [hlead, hvowel]
  · simp [hlead, hvowel, htrail]

theorem isOrdinary_decompose {depth c : Nat} (h : IsOrdinary c) :
  ∀ d ∈ decompose depth c, IsOrdinary d
  := by
  induction depth generalizing c with
  | zero =>
      intro d hd
      rw [decompose] at hd
      rw [List.mem_singleton.mp hd]
      exact h
  | succ depth ih =>
      rw [decompose]
      split_ifs with hsmall hsyllable
      · intro d hd
        rw [List.mem_singleton.mp hd]
        exact h
      · apply isOrdinary_syllableParts hsyllable
      · cases hfind : decompositionTable.find? (·.1 == c) with
        | none =>
            intro d hd
            rw [List.mem_singleton.mp hd]
            exact h
        | some e =>
            have he := foreign_decompositionTable e (List.mem_of_find?_eq_some hfind)
            intro d hd
            obtain ⟨c', hc', hd⟩ := List.mem_flatMap.mp hd
            apply ih (he.2 c' hc').isOrdinary d hd

theorem isOrdinary_joinPair {a b c : Nat} (h : joinPair a b = some c) :
  IsOrdinary c
  := by
  obtain ⟨e, he, rfl⟩ := Option.map_eq_some_iff.mp h
  exact (foreign_decompositionTable e (List.mem_of_find?_eq_some he)).1.isOrdinary

theorem joinPair_quote (b : Nat) :
  joinPair 34 b = none
  := by
  rw [joinPair, Option.map_eq_none_iff, List.find?_eq_none]
  rintro ⟨c, parts⟩ he
  have hparts := (foreign_decompositionTable _ he).2
  match parts with
  | [x, y] =>
      have hx := (hparts x List.mem_cons_self).1
      simp [isPair, hx]
  | [] | [_] | _ :: _ :: _ :: _ => simp [isPair]

theorem isOrdinary_joinSyllable {a b c : Nat} (h : joinSyllable a b = some c) :
  IsOrdinary c
  := by
  rw [joinSyllable] at h
  split_ifs at h with hfirst hsecond
  · obtain rfl := Option.some_inj.mp h
    simp only [Bool.and_eq_true, decide_eq_true_eq] at hfirst
    rw [leadBase, vowelBase] at hfirst
    apply isOrdinary_of_le
    all_goals
      rw [syllableBase, leadBase, vowelBase]
      omega
  · obtain rfl := Option.some_inj.mp h
    simp only [isSyllable, Bool.and_eq_true, decide_eq_true_eq] at hsecond
    rw [syllableBase, trailBase] at hsecond
    apply isOrdinary_of_le
    all_goals
      rw [trailBase]
      omega

theorem joinSyllable_quote (b : Nat) :
  joinSyllable 34 b = none
  := rfl

theorem classOf_quote :
  classOf 34 = 0
  := if_pos (by decide)

theorem joins_quote :
  joiningCodes.contains 34 = false
  := CodeSet.contains_eq_false lt_joiningCodes

theorem markLike_quote :
  markLikeCodes.contains 34 = false
  := CodeSet.contains_eq_false lt_markLikeCodes

end Compose

end ThreeAddress
