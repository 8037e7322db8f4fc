import Mathlib.Tactic.Common
import ThreeAddress.Text.Utf8

/-!
# Characters between quotes

The bytes of a quote and of a newline occur in no other character, so a text without these bytes is
read as characters other than these, and a quote after it is a character of its own.
-/

namespace ThreeAddress

/-- There is no quote and no newline in a text. -/
structure Text.Unbroken (t : Text) : Prop where
  quote : 34 ∉ t
  line : 10 ∉ t

/-- Composing keeps the quotes around a text, and it makes neither a quote nor a newline between
them. -/
class LawfulComposing [Composing] : Prop where
  quoted : ∀ {body : Text}, body.Unbroken →
    ∃ body' : Text, Text.compose (34 :: (body ++ [34])) = 34 :: (body' ++ [34]) ∧ body'.Unbroken

namespace Text.Unbroken

theorem nil : Text.Unbroken []
  := ⟨List.not_mem_nil, List.not_mem_nil⟩

theorem append_iff {t t' : Text} :
  Text.Unbroken (t ++ t') ↔ t.Unbroken ∧ t'.Unbroken
  := by
  constructor
  · rintro ⟨hquote, hline⟩
    rw [List.mem_append, not_or] at hquote hline
    exact ⟨⟨hquote.1, hline.1⟩, ⟨hquote.2, hline.2⟩⟩
  · rintro ⟨⟨hquote, hline⟩, ⟨hquote', hline'⟩⟩
    constructor
    · simp [hquote, hquote']
    · simp [hline, hline']

theorem flatMap {α : Type} {as : List α} {f : α → Text} (h : ∀ a ∈ as, (f a).Unbroken) :
  Text.Unbroken (as.flatMap f)
  := by
  constructor
  · intro hmem
    obtain ⟨a, ha, hb⟩ := List.mem_flatMap.mp hmem
    exact (h a ha).quote hb
  · intro hmem
    obtain ⟨a, ha, hb⟩ := List.mem_flatMap.mp hmem
    exact (h a ha).line hb

end Text.Unbroken

/-! ### Code points -/

/-- A code point other than a quote and a newline, small enough to be written. -/
structure IsOrdinary (c : Nat) : Prop where
  quote : c ≠ 34
  line : c ≠ 10
  lt : c < 0x400000

theorem IsOrdinary.unbroken_ofCode {c : Nat} (h : IsOrdinary c) :
  (Text.ofCode c).Unbroken
  := by
  obtain ⟨hquote, hline, hlt⟩ := h
  rw [Text.ofCode]
  constructor
  all_goals
    split_ifs
    all_goals
      simp only [List.mem_cons, List.not_mem_nil, ← UInt8.toNat_inj, Nat.toUInt8_eq,
        UInt8.toNat_ofNat', or_false, UInt8.reduceToNat]
      omega

theorem isOrdinary_of_le {c : Nat} (hle : 0x80 ≤ c) (hlt : c < 0x400000) :
  IsOrdinary c
  := ⟨by omega, by omega, hlt⟩

namespace Glyph

/-- The first byte of an encoding of three bytes is not so small that two would do. -/
theorem le_of_secondOfThree {a b : UInt8} (ha : 0xE0 ≤ a ∧ a ≤ 0xEF) (hb : secondOfThree a b) :
  0x20 ≤ a.toNat % 16 * 64 + payload b
  := by
  rw [secondOfThree] at hb
  rw [payload]
  split_ifs at hb with h
  all_goals
    simp only [Bool.and_eq_true, decide_eq_true_eq, UInt8.le_iff_toNat_le, ← UInt8.toNat_inj,
      UInt8.reduceToNat] at ha hb h
    omega

/-- The first byte of an encoding of four bytes is not so small that three would do. -/
theorem le_of_secondOfFour {a b : UInt8} (ha : 0xF0 ≤ a ∧ a ≤ 0xF4) (hb : secondOfFour a b) :
  0x10 ≤ a.toNat % 8 * 64 + payload b
  := by
  rw [secondOfFour] at hb
  rw [payload]
  split_ifs at hb with h
  all_goals
    simp only [Bool.and_eq_true, decide_eq_true_eq, UInt8.le_iff_toNat_le, ← UInt8.toNat_inj,
      UInt8.reduceToNat] at ha hb h
    omega

/-- A character is neither a quote nor a newline if none of its bytes is. -/
theorem isOrdinary_first {a : UInt8} {rest : Text} (h : (first a rest).bytes.Unbroken)
    (hvalid : (first a rest).valid) :
  IsOrdinary (first a rest).code
  := by
  have hpayload : ∀ b : UInt8, payload b < 64 := fun b => Nat.mod_lt _ (by decide)
  revert h hvalid
  fun_cases first a rest with
  | case1 _ ha =>
      intro h _
      obtain ⟨hquote, hline⟩ := h
      simp only [List.mem_singleton, ← UInt8.toNat_inj, UInt8.lt_iff_toNat_lt,
        UInt8.reduceToNat] at ha hquote hline
      constructor
      all_goals
        dsimp only
        omega
  | case2 ha hlead b _ hb =>
      intro _ _
      simp only [Bool.and_eq_true, decide_eq_true_eq, UInt8.le_iff_toNat_le,
        UInt8.reduceToNat] at hlead
      have hb := hpayload b
      apply isOrdinary_of_le
      all_goals
        dsimp only
        omega
  | case5 ha _ hlead b c _ hbc =>
      intro _ _
      simp only [Bool.and_eq_true, decide_eq_true_eq] at hlead hbc
      have hle := le_of_secondOfThree hlead hbc.1
      have hb := hpayload b
      have hc := hpayload c
      apply isOrdinary_of_le
      all_goals
        dsimp only
        omega
  | case8 ha _ _ hlead b c d _ hbcd =>
      intro _ _
      simp only [Bool.and_eq_true, decide_eq_true_eq] at hlead hbcd
      have hle := le_of_secondOfFour hlead hbcd.1.1
      have hb := hpayload b
      have hc := hpayload c
      have hd := hpayload d
      apply isOrdinary_of_le
      all_goals
        dsimp only
        omega
  | _ =>
      intro _ hvalid
      cases hvalid

/-- The first character takes at least one byte from the front of the text. -/
theorem exists_bytes_first (b : UInt8) (t : Text) :
  ∃ rest, b :: t = (first b t).bytes ++ rest ∧ (first b t).bytes ≠ []
  := by
  fun_cases first b t
  all_goals simp [stray]

/-- The characters of a text are the first one and those of what is left. -/
theorem glyphs_cons {b : UInt8} {t rest : Text} (h : b :: t = (first b t).bytes ++ rest) :
  Text.glyphs (b :: t) = first b t :: Text.glyphs rest
  := by
  obtain ⟨_, _, hbytes⟩ := exists_bytes_first b t
  have hpos := List.length_pos_iff.mpr hbytes
  have hdrop : t.drop ((first b t).bytes.length - 1) = rest := by
    rw [← List.drop_succ_cons (a := b), Nat.sub_add_cancel hpos, h, List.drop_left]
  rw [Text.glyphs, hdrop]

/-- A quote belongs to no character before it. -/
theorem first_concat_quote (a : UInt8) (rest : Text) :
  first a (rest ++ [34]) = first a rest
  := by
  have hquote : isContinuation 34 = false := rfl
  obtain _ | ⟨b, _ | ⟨c, _ | ⟨d, rest⟩⟩⟩ := rest
  all_goals simp [first, hquote]

/-- A quote as a character. -/
def quote : Glyph := ⟨34, [34], true⟩

/-- Neither a quote nor a newline is in the bytes of a character, nor is it the character. -/
structure Ordinary (g : Glyph) : Prop where
  bytes : g.bytes.Unbroken
  code : g.valid → IsOrdinary g.code

end Glyph

/-- Induction on the characters of a text. -/
@[elab_as_elim]
theorem Text.glyphs_induction {P : Text → Prop} (nil : P [])
    (cons : ∀ b t rest, b :: t = (Glyph.first b t).bytes ++ rest →
      Text.glyphs (b :: t) = Glyph.first b t :: Text.glyphs rest → P rest → P (b :: t)) (t : Text) :
  P t
  := by
  induction hn : t.length using Nat.strongRecOn generalizing t with
  | ind n ih =>
      cases t with
      | nil => exact nil
      | cons b t =>
          obtain ⟨rest, ht, hbytes⟩ := Glyph.exists_bytes_first b t
          have hpos := List.length_pos_iff.mpr hbytes
          have hlength := congrArg List.length ht
          rw [List.length_append, hn] at hlength
          exact cons b t rest ht (Glyph.glyphs_cons ht) (ih rest.length (by omega) rest rfl)

/-- The characters of a text have all its bytes. -/
theorem Text.flatMap_bytes_glyphs (t : Text) :
  t.glyphs.flatMap (·.bytes) = t
  := by
  induction t using glyphs_induction with
  | nil => rw [glyphs, List.flatMap_nil]
  | cons b t rest ht hglyphs ih => rw [hglyphs, List.flatMap_cons, ih, ← ht]

/-- The characters of a text before a quote are those of the text. -/
theorem Text.glyphs_concat_quote {t : Text} (h : t.Unbroken) :
  (t ++ [34]).glyphs = t.glyphs ++ [Glyph.quote] ∧ ∀ g ∈ t.glyphs, g.Ordinary
  := by
  induction t using glyphs_induction with
  | nil =>
      rw [List.nil_append, glyphs, glyphs, List.drop_nil, glyphs]
      exact ⟨rfl, by simp⟩
  | cons a t rest ht hglyphs ih =>
      obtain ⟨hfirst, hrest⟩ := Text.Unbroken.append_iff.mp (ht ▸ h)
      obtain ⟨hquote, hordinary⟩ := ih hrest
      have ht' : a :: (t ++ [34]) = (Glyph.first a (t ++ [34])).bytes ++ (rest ++ [34]) := by
        rw [Glyph.first_concat_quote, ← List.cons_append, ht, List.append_assoc]
      rw [List.cons_append, Glyph.glyphs_cons ht', Glyph.first_concat_quote, hglyphs, hquote]
      constructor
      · rfl
      · rw [List.forall_mem_cons]
        exact ⟨⟨hfirst, Glyph.isOrdinary_first hfirst⟩, hordinary⟩

end ThreeAddress
