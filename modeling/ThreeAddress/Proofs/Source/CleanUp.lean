import Mathlib.Data.List.Infix
import Mathlib.Logic.Function.Iterate
import Mathlib.Tactic.Common
import ThreeAddress.Source.FileSet

/-!
# Clean-up

Clean-up drops one byte-order mark and then, in one pass, the carriage returns directly before
newlines.  So a pair is left exactly where two returns stood before a newline, and a mark exactly
where two marks stood at the front.  What is left then is cleaned up by another round, and a text
that is not clean gets shorter in every round.
-/

namespace ThreeAddress

namespace Text

/-- There is nothing to clean up: no carriage return stands before a newline, and no byte-order mark
at the front. -/
structure Clean (t : Text) : Prop where
  pair : ¬ [13, 10] <:+: t
  mark : ¬ File.byteOrderMark <+: t

/-! ### Carriage returns -/

theorem pair_not_prefix_cons {b : UInt8} {t : Text}
    (h : ∀ rest, b = 13 → t = 10 :: rest → False) :
  ¬ [13, 10] <+: b :: t
  := by
  intro hpair
  obtain ⟨rfl, rest, rfl⟩ := List.cons_prefix_cons.mp hpair
  exact h rest rfl rfl

/-- A newline comes to the front from there or from behind a return. -/
theorem newline_prefix_dropReturns (t : Text) :
  [10] <+: t.dropReturns ↔ [10] <+: t ∨ [13, 10] <+: t
  := by
  fun_cases dropReturns t with
  | case1 => simp
  | case2 rest => simp [List.cons_prefix_cons]
  | case3 b rest hpair =>
      constructor
      · intro h
        exact .inl (by simpa [List.cons_prefix_cons] using h)
      · rintro (h | h)
        · simpa [List.cons_prefix_cons] using h
        · exact absurd h (pair_not_prefix_cons hpair)

/-- A pair is left exactly where a return stood before it. -/
theorem pair_infix_dropReturns (t : Text) :
  [13, 10] <:+: t.dropReturns ↔ [13, 13, 10] <:+: t
  := by
  fun_induction dropReturns t with
  | case1 => simp
  | case2 rest ih => simp [List.infix_cons_iff, List.cons_prefix_cons, ih]
  | case3 b rest hpair ih =>
      rw [List.infix_cons_iff, List.infix_cons_iff, ih, List.cons_prefix_cons,
        List.cons_prefix_cons, newline_prefix_dropReturns]
      have hnone : 13 = b → ¬ [10] <+: rest :=
        fun hb h => pair_not_prefix_cons hpair (List.cons_prefix_cons.mpr ⟨hb, h⟩)
      constructor
      · rintro (⟨hb, h | h⟩ | h)
        · exact absurd h (hnone hb)
        · exact .inl ⟨hb, h⟩
        · exact .inr h
      · rintro (⟨hb, h⟩ | h)
        · exact .inl ⟨hb, .inr h⟩
        · exact .inr h

/-- Bytes other than returns and newlines stay at the front. -/
theorem prefix_dropReturns_iff {p : Text} (hp : ∀ b ∈ p, b ≠ 13 ∧ b ≠ 10) (t : Text) :
  p <+: t.dropReturns ↔ p <+: t
  := by
  induction p generalizing t with
  | nil => simp
  | cons b p ih =>
      obtain ⟨⟨hreturn, hnewline⟩, hp⟩ := List.forall_mem_cons.mp hp
      fun_cases dropReturns t with
      | case1 => rfl
      | case2 rest => simp [List.cons_prefix_cons, hreturn, hnewline]
      | case3 c rest hpair => rw [List.cons_prefix_cons, List.cons_prefix_cons, ih hp]

theorem dropReturns_eq_self {t : Text} (ht : ¬ [13, 10] <:+: t) :
  t.dropReturns = t
  := by
  fun_induction dropReturns t with
  | case1 => rfl
  | case2 rest ih => exact absurd (List.prefix_append [13, 10] rest).isInfix ht
  | case3 b rest hpair ih =>
      rw [List.infix_cons_iff, not_or] at ht
      rw [ih ht.2]

theorem length_dropReturns_le (t : Text) :
  t.dropReturns.length ≤ t.length
  := by
  fun_induction dropReturns t with
  | case1 => rfl
  | case2 rest ih =>
      simp only [List.length_cons]
      omega
  | case3 b rest hpair ih =>
      simp only [List.length_cons]
      omega

theorem length_dropReturns_lt {t : Text} (ht : [13, 10] <:+: t) :
  t.dropReturns.length < t.length
  := by
  fun_induction dropReturns t with
  | case1 => simp at ht
  | case2 rest ih =>
      have := length_dropReturns_le rest
      simp only [List.length_cons]
      omega
  | case3 b rest hpair ih =>
      have := ih ((List.infix_cons_iff.mp ht).resolve_left (pair_not_prefix_cons hpair))
      simp only [List.length_cons]
      omega

end Text

namespace File

theorem hasReturns_iff (t : Text) :
  hasReturns t ↔ [13, 10] <:+: t
  := by
  fun_induction hasReturns t with
  | case1 => simp
  | case2 rest => exact iff_of_true rfl (List.prefix_append [13, 10] rest).isInfix
  | case3 b rest hpair ih =>
      rw [ih, List.infix_cons_iff]
      exact ⟨.inr, fun h => h.resolve_left (Text.pair_not_prefix_cons hpair)⟩

/-! ### Byte-order marks -/

theorem dropMark_append (t : Text) :
  dropMark (byteOrderMark ++ t) = (t, true)
  := by
  have hdrop : Text.dropLeading? byteOrderMark (byteOrderMark ++ t) = some t := by
    rw [Text.dropLeading?, if_pos (List.isPrefixOf_iff_prefix.mpr (List.prefix_append _ _)),
      List.drop_left]
  rw [dropMark, hdrop]

theorem dropMark_of_unmarked {t : Text} (ht : ¬ byteOrderMark <+: t) :
  dropMark t = (t, false)
  := by
  have hdrop : Text.dropLeading? byteOrderMark t = none := by
    rw [Text.dropLeading?, if_neg (mt List.isPrefixOf_iff_prefix.mp ht)]
  rw [dropMark, hdrop]

theorem infix_mark_append {p : Text} (hp : p.head? = some 13) (t : Text) :
  p <:+: byteOrderMark ++ t ↔ p <:+: t
  := by
  obtain ⟨b, p, rfl⟩ := List.exists_cons_of_ne_nil (List.ne_nil_of_mem (List.mem_of_head? hp))
  obtain rfl : b = 13 := Option.some.inj hp
  simp [byteOrderMark, List.infix_cons_iff, List.cons_prefix_cons]

/-! ### Cleaned-up texts -/

/-- A text after clean-up. -/
def cleaned (t : Text) : Text := (cleanUp t).1

theorem cleaned_append (t : Text) :
  cleaned (byteOrderMark ++ t) = t.dropReturns
  := by
  rw [cleaned, cleanUp, dropMark_append]

theorem cleaned_of_unmarked {t : Text} (ht : ¬ byteOrderMark <+: t) :
  cleaned t = t.dropReturns
  := by
  rw [cleaned, cleanUp, dropMark_of_unmarked ht]

theorem pair_infix_cleaned (t : Text) :
  [13, 10] <:+: cleaned t ↔ [13, 13, 10] <:+: t
  := by
  by_cases ht : byteOrderMark <+: t
  · obtain ⟨body, rfl⟩ := ht
    rw [cleaned_append, Text.pair_infix_dropReturns, infix_mark_append rfl]
  · rw [cleaned_of_unmarked ht, Text.pair_infix_dropReturns]

theorem mark_prefix_cleaned (t : Text) :
  byteOrderMark <+: cleaned t ↔ byteOrderMark ++ byteOrderMark <+: t
  := by
  have hmark : ∀ b ∈ byteOrderMark, b ≠ 13 ∧ b ≠ 10 := by simp [byteOrderMark]
  by_cases ht : byteOrderMark <+: t
  · obtain ⟨body, rfl⟩ := ht
    rw [cleaned_append, Text.prefix_dropReturns_iff hmark, List.prefix_append_right_inj]
  · rw [cleaned_of_unmarked ht, Text.prefix_dropReturns_iff hmark]
    exact iff_of_false ht fun h => ht ((List.prefix_append _ _).trans h)

/-- What clean-up finds: a mark at the front, and pairs anywhere. -/
theorem cleanUp_snd (t : Text) :
  (cleanUp t).2 = (decide (byteOrderMark <+: t), decide ([13, 10] <:+: t))
  := by
  by_cases ht : byteOrderMark <+: t
  · have hreturns : ∀ body, hasReturns body = decide ([13, 10] <:+: byteOrderMark ++ body) := by
      intro body
      rw [Bool.eq_iff_iff, hasReturns_iff, decide_eq_true_iff, infix_mark_append rfl]
    rw [decide_eq_true ht]
    obtain ⟨body, rfl⟩ := ht
    rw [cleanUp, dropMark_append, ← hreturns]
  · have hreturns : hasReturns t = decide ([13, 10] <:+: t) := by
      rw [Bool.eq_iff_iff, hasReturns_iff, decide_eq_true_iff]
    rw [decide_eq_false ht, cleanUp, dropMark_of_unmarked ht, ← hreturns]

theorem cleaned_eq_self {t : Text} (ht : t.Clean) :
  cleaned t = t
  := by
  rw [cleaned_of_unmarked ht.mark, Text.dropReturns_eq_self ht.pair]

theorem cleanUp_of_clean {t : Text} (ht : t.Clean) :
  cleanUp t = (t, false, false)
  := by
  apply Prod.ext
  · exact cleaned_eq_self ht
  · rw [cleanUp_snd, decide_eq_false ht.mark, decide_eq_false ht.pair]

/-- Clean-up makes a text that is not clean shorter. -/
theorem length_cleaned_lt {t : Text} (ht : ¬ t.Clean) :
  (cleaned t).length < t.length
  := by
  by_cases hmark : byteOrderMark <+: t
  · obtain ⟨body, rfl⟩ := hmark
    have hle := Text.length_dropReturns_le body
    have hpos : 0 < byteOrderMark.length := by decide
    rw [cleaned_append, List.length_append]
    omega
  · rw [cleaned_of_unmarked hmark]
    apply Text.length_dropReturns_lt
    by_contra hpair
    exact ht ⟨hpair, hmark⟩

theorem cleaned_eq_self_iff (t : Text) :
  cleaned t = t ↔ t.Clean
  := by
  constructor
  · intro h
    by_contra ht
    exact Nat.lt_irrefl _ (h ▸ length_cleaned_lt ht)
  · exact cleaned_eq_self

/-- Cleaning up over and over ends in a clean text, in no more rounds than there are bytes. -/
theorem exists_clean (t : Text) :
  ∃ n ≤ t.length, (cleaned^[n] t).Clean
  := by
  induction hlength : t.length using Nat.strongRecOn generalizing t with
  | ind k ih =>
      by_cases ht : t.Clean
      · exact ⟨0, Nat.zero_le _, ht⟩
      · have hlt := length_cleaned_lt ht
        obtain ⟨n, hn, hclean⟩ := ih _ (hlength ▸ hlt) (cleaned t) rfl
        exact ⟨n + 1, by omega, hclean⟩

end File

/-! ### Files of a set -/

namespace FileSet

/-- The file that a set holds after a content is cleaned up and added to it. -/
def stored? (s : FileSet) (path content : Text) (flags : Nat) : Option File :=
  (s.addCleaned path content flags).1.get? (s.addCleaned path content flags).2

/-- The flags of a clean-up that drops a mark or carriage returns. -/
def cleanUpFlags (mark returns : Bool) : Nat :=
  ({ hadMark := mark, hadCarriageReturns := returns } : FileFlags).bits

variable {s : FileSet} (path content : Text) (flags : Nat)

theorem toNat_id_add (hs : s.size < UInt32.size) :
  (s.add path content flags).2.toNat = s.size
  := by
  change s.files.size.toUInt32.toNat = _
  rw [Nat.toUInt32_eq]
  apply UInt32.toNat_ofNat_of_lt' hs

theorem get?_add (hs : s.size < UInt32.size) :
  ∃ f, (s.add path content flags).1.get? (s.add path content flags).2 = some f
    ∧ f.content = content ∧ f.flags = flags
  := by
  rw [get?, toNat_id_add path content flags hs, add]
  dsimp only
  rw [size, Array.getElem?_push_size]
  exact ⟨_, rfl, rfl, rfl⟩

/-- A file that a set admits gets an identifier of its own, and the other files keep theirs. -/
theorem get?_of_add? {s' : FileSet} {id : FileId} (h : s.add? path content flags = some (s', id)) :
  (∃ f, s'.get? id = some f ∧ f.content = content ∧ f.flags = flags)
    ∧ s.get? id = none ∧ ∀ other, other ≠ id → s'.get? other = s.get? other
  := by
  rw [add?] at h
  split at h
  · next hadmits =>
    rw [admits, Bool.and_eq_true, decide_eq_true_eq, decide_eq_true_eq] at hadmits
    have hid := toNat_id_add path content flags hadmits.2
    have hfound := get?_add path content flags hadmits.2
    rw [Option.some.inj h] at hid hfound
    refine ⟨hfound, ?_, ?_⟩
    · rw [get?, hid]
      apply Array.getElem?_eq_none (Nat.le_refl _)
    · intro other hother
      have hne : other.toNat ≠ s.files.size := fun heq =>
        hother (UInt32.toNat_inj.mp (heq.trans hid.symm))
      have hset : s' = (s.add path content flags).1 := by rw [Option.some.inj h]
      rw [hset, get?, get?, add]
      dsimp only
      rw [Array.getElem?_push, if_neg hne]
  · cases h

theorem exists_stored (hs : s.size < UInt32.size) :
  ∃ f, s.stored? path content flags = some f ∧ f.content = File.cleaned content
    ∧ f.flags = flags |||
      cleanUpFlags (decide (File.byteOrderMark <+: content)) (decide ([13, 10] <:+: content))
  := by
  have hcleanUp : File.cleanUp content = (File.cleaned content,
      decide (File.byteOrderMark <+: content), decide ([13, 10] <:+: content)) := by
    rw [← File.cleanUp_snd]
    rfl
  rw [stored?, addCleaned, hcleanUp]
  exact get?_add path _ _ hs

/-- What is stored of a content, and what is stored if that is added again, under any path and to
any set.

A pair is stored if the content has a pair behind a carriage return, and a mark at the front if the
content starts with two marks.  Added again, what was stored gets just the flags for these, and is
stored as it is if it has neither.  Cleaning up over and over ends with neither. -/
structure StoredFrom (f : File) (content : Text) : Prop where
  pair_iff : [13, 10] <:+: f.content ↔ [13, 13, 10] <:+: content
  mark_iff : File.byteOrderMark <+: f.content ↔
    File.byteOrderMark ++ File.byteOrderMark <+: content
  again : ∀ (s : FileSet) (path : Text) (flags : Nat), s.size < UInt32.size →
    ∃ f', s.stored? path f.content flags = some f'
      ∧ f'.flags = flags |||
        cleanUpFlags (decide (File.byteOrderMark ++ File.byteOrderMark <+: content))
          (decide ([13, 13, 10] <:+: content))
      ∧ (f'.content = f.content ↔ ¬ [13, 13, 10] <:+: content
          ∧ ¬ File.byteOrderMark ++ File.byteOrderMark <+: content)
  settles : ∃ n ≤ content.length, (File.cleaned^[n] content).Clean

/-- Whatever content is cleaned up and added to a set, what is stored is clean and stays as it is
when it is added again, but for a pair behind a carriage return and for a second mark. -/
theorem stored_is_clean_iff (hs : s.size < UInt32.size) :
  ∃ f, s.stored? path content flags = some f ∧ StoredFrom f content
  := by
  obtain ⟨f, hf, hcontent, -⟩ := s.exists_stored path content flags hs
  use f, hf
  have hpair := File.pair_infix_cleaned content
  have hmark := File.mark_prefix_cleaned content
  rw [← hcontent] at hpair hmark
  constructor
  · exact hpair
  · exact hmark
  · intro s' path' flags' hs'
    obtain ⟨f', hf', hcontent', hflags'⟩ := s'.exists_stored path' f.content flags' hs'
    refine ⟨f', hf', ?_, ?_⟩
    · rw [hflags', decide_eq_decide.mpr hmark, decide_eq_decide.mpr hpair]
    · rw [hcontent', File.cleaned_eq_self_iff, ← hpair, ← hmark]
      exact ⟨fun h => ⟨h.pair, h.mark⟩, fun h => ⟨h.1, h.2⟩⟩
  · exact File.exists_clean content

/-- A return before a pair stays and makes another pair, which is found when what was stored is
added again. -/
theorem doubledReturn_keeps_pair :
  (stored? {} "doubled" "\r\r\n" 0).map (·.content) = some (Text.ofString "\r\n")
    ∧ ¬ (Text.ofString "\r\n").Clean
    ∧ (stored? {} "doubled" "\r\n" 0).map (fun f => (f.content, f.flags))
      = some (Text.ofString "\n", cleanUpFlags false true)
  := by
  refine ⟨rfl, ?_, rfl⟩
  intro h
  exact h.pair (by decide)

/-- What is stored of a content with two marks and a pair behind a return. -/
theorem doubledMark_stored :
  (FileSet.size {} < UInt32.size) ∧ ∃ f, stored? {} "doubled"
      (File.byteOrderMark ++ (File.byteOrderMark ++ "\r\r\n")) 0 = some f ∧
    StoredFrom f (File.byteOrderMark ++ (File.byteOrderMark ++ "\r\r\n"))
  := by
  have hsize : FileSet.size {} < UInt32.size := by decide
  exact ⟨hsize, stored_is_clean_iff "doubled" _ 0 hsize⟩

end FileSet

end ThreeAddress
