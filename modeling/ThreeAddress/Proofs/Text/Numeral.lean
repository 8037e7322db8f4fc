import Mathlib.Tactic.Common
import ThreeAddress.Text.Basic

/-!
# Numerals

Different numbers have different numerals.  The names of blocks, temporaries, labels and registers
are numerals with a letter in front, so different places have different names.  A numeral ends where
the first byte stands that is no digit, so numerals in a row can be told apart.
-/

namespace ThreeAddress

namespace Text

/-- Different digits have different bytes. -/
theorem digit_injective {m n : Nat} (hm : m < 10) (hn : n < 10) (h : digit m = digit n) :
  m = n
  := by
  have h' := congrArg UInt8.toNat h
  simp only [digit, Nat.toUInt8, UInt8.toNat_ofNat'] at h'
  omega

theorem ofNat_of_lt {n : Nat} (h : n < 10) :
  ofNat n = [digit n]
  := by
  rw [ofNat, if_pos h]

theorem ofNat_of_le {n : Nat} (h : 10 ≤ n) :
  ofNat n = ofNat (n / 10) ++ [digit (n % 10)]
  := by
  rw [ofNat, if_neg (by omega)]

/-- A numeral has at least one digit. -/
theorem ofNat_ne_nil (n : Nat) :
  ofNat n ≠ []
  := by
  obtain h | h := Nat.lt_or_ge n 10
  · simp [ofNat_of_lt h]
  · simp [ofNat_of_le h]

/-- The numeral of a number from ten on is no single digit. -/
theorem ofNat_ne_singleton {n : Nat} (h : 10 ≤ n) (b : UInt8) :
  ofNat n ≠ [b]
  := by
  intro hb
  rw [ofNat_of_le h] at hb
  have hnil := List.append_eq_singleton_iff.mp hb
  simp [ofNat_ne_nil] at hnil

/-- A numeral consists of digits. -/
theorem mem_ofNat {n : Nat} {b : UInt8} (h : b ∈ ofNat n) :
  48 ≤ b.toNat ∧ b.toNat ≤ 57
  := by
  have hdigit : ∀ k < 10, 48 ≤ (digit k).toNat ∧ (digit k).toNat ≤ 57 := by decide
  induction n using Nat.strongRecOn with
  | _ n ih =>
      obtain hn | hn := Nat.lt_or_ge n 10
      · rw [ofNat_of_lt hn, List.mem_singleton] at h
        rw [h]
        exact hdigit n hn
      · rw [ofNat_of_le hn, List.mem_append, List.mem_singleton] at h
        obtain h | rfl := h
        · exact ih (n / 10) (by omega) h
        · exact hdigit (n % 10) (by omega)

/-- A byte that is no digit ends a numeral. -/
theorem notMem_ofNat {b : UInt8} (h : ¬ (48 ≤ b.toNat ∧ b.toNat ≤ 57)) (n : Nat) :
  b ∉ ofNat n
  := fun hb => h (mem_ofNat hb)

/-- Numbers with the same numeral are equal. -/
theorem ofNat_injective {m n : Nat} (h : ofNat m = ofNat n) :
  m = n
  := by
  induction m using Nat.strongRecOn generalizing n with
  | _ m ih =>
      obtain hm | hm := Nat.lt_or_ge m 10
      · obtain hn | hn := Nat.lt_or_ge n 10
        · rw [ofNat_of_lt hm, ofNat_of_lt hn] at h
          apply digit_injective hm hn (List.head_eq_of_cons_eq h)
        · rw [ofNat_of_lt hm] at h
          apply absurd h.symm (ofNat_ne_singleton hn _)
      · obtain hn | hn := Nat.lt_or_ge n 10
        · rw [ofNat_of_lt hn] at h
          apply absurd h (ofNat_ne_singleton hm _)
        · rw [ofNat_of_le hm, ofNat_of_le hn] at h
          obtain ⟨hfront, hlast⟩ := List.append_inj' h rfl
          have hdiv : m / 10 = n / 10 := ih (m / 10) (by omega) hfront
          have hmod : m % 10 = n % 10 :=
            digit_injective (by omega) (by omega) (List.head_eq_of_cons_eq hlast)
          omega

/-- Numerals with one text in front are equal only for equal numbers. -/
theorem append_ofNat_injective (front : Text) {m n : Nat}
    (h : front ++ ofNat m = front ++ ofNat n) :
  m = n
  := ofNat_injective (List.append_cancel_left h)

theorem digitValue?_digit {n : Nat} (h : n < 10) :
  digitValue? (digit n) = some n
  := by
  have hdigit : ∀ n < 10, digitValue? (digit n) = some n := by decide
  exact hdigit n h

/-- A numeral denotes the number of which it is one. -/
theorem toNat?_ofNat (n : Nat) :
  toNat? (ofNat n) = some n
  := by
  have hfold : (ofNat n).foldl (fun acc b => do return (← acc) * 10 + (← digitValue? b)) (some 0)
      = some n := by
    induction n using Nat.strongRecOn with
    | _ n ih =>
        obtain hn | hn := Nat.lt_or_ge n 10
        · rw [ofNat_of_lt hn, List.foldl_cons, List.foldl_nil, digitValue?_digit hn]
          simp
        · rw [ofNat_of_le hn, List.foldl_append, ih (n / 10) (by omega), List.foldl_cons,
            List.foldl_nil, digitValue?_digit (by omega)]
          change some (n / 10 * 10 + n % 10) = some n
          rw [Nat.div_add_mod']
  cases h : ofNat n with
  | nil => cases ofNat_ne_nil n h
  | cons b t =>
      rw [h] at hfold
      exact hfold

/-- A text up to the first of some byte and the text after it are determined. -/
theorem append_cons_inj {sep : UInt8} {s s' t t' : Text} (hs : sep ∉ s) (hs' : sep ∉ s')
    (h : s ++ sep :: t = s' ++ sep :: t') :
  s = s' ∧ t = t'
  := by
  induction s generalizing s' with
  | nil =>
      cases s' with
      | nil => exact ⟨rfl, List.tail_eq_of_cons_eq h⟩
      | cons b s' =>
          obtain rfl := List.head_eq_of_cons_eq h
          exact absurd List.mem_cons_self hs'
  | cons a s ih =>
      cases s' with
      | nil =>
          obtain rfl := List.head_eq_of_cons_eq h
          exact absurd List.mem_cons_self hs
      | cons b s' =>
          obtain ⟨rfl, htail⟩ := List.cons.inj h
          rw [List.mem_cons, not_or] at hs hs'
          obtain ⟨rfl, rfl⟩ := ih hs.2 hs'.2 htail
          exact ⟨rfl, rfl⟩

end Text

end ThreeAddress
