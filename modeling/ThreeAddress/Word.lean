/-!
# Words of 64 bits

The bounds of the numbers that a word of 64 bits holds, with and without a sign.
-/

namespace ThreeAddress

namespace Word

/-- The number of words, which is the first number without a sign that no word holds. -/
def count : Nat := 0x10000000000000000

/-- The first positive number that no word with a sign holds. -/
def half : Nat := 0x8000000000000000

theorem count_eq :
  count = 18446744073709551616
  := rfl

theorem half_eq :
  half = 9223372036854775808
  := rfl

/-- Whether a word with a sign holds an integer. -/
def holds (n : Int) : Bool := decide (-(half : Int) ≤ n ∧ n < half)

/-- The word that stands for an integer, modulo the number of words. -/
def ofInt (n : Int) : Nat := (n % count).toNat

/-- The integer that a word with a sign stands for. -/
def toInt (n : Nat) : Int := if n < half then n else n - count

/-- An integer that is a word stands for itself. -/
theorem toInt_ofInt_of_holds {n : Int} (h : holds n) :
  toInt (ofInt n) = n
  := by
  rw [holds, decide_eq_true_iff, half_eq] at h
  rw [toInt, ofInt, half_eq, count_eq]
  split
  · omega
  · omega

/-- A positive integer that is no word turns negative. -/
theorem toInt_ofInt_of_half_le {n : Int} (hlow : half ≤ n) (hhigh : n < count) :
  toInt (ofInt n) = n - count
  := by
  rw [half_eq] at hlow
  rw [count_eq] at hhigh
  rw [toInt, ofInt, half_eq, count_eq]
  rw [if_neg (by omega)]
  omega

theorem toInt_ofInt_lt (n : Int) :
  toInt (ofInt n) < half
  := by
  rw [toInt, ofInt, half_eq, count_eq]
  split
  · omega
  · omega

theorem toInt_ofInt_le {n : Int} (h : 0 ≤ n) :
  toInt (ofInt n) ≤ n
  := by
  rw [toInt, ofInt, half_eq, count_eq]
  split
  · omega
  · omega

/-- Counting one more adds one, or wraps around. -/
theorem toInt_ofInt_succ_le (n : Int) :
  toInt (ofInt (n + 1)) ≤ toInt (ofInt n) + 1
  := by
  rw [toInt, toInt, ofInt, ofInt, half_eq, count_eq]
  split
  · split
    · omega
    · omega
  · split
    · omega
    · omega

/-- The difference of two words with a sign, which wraps around. -/
def minus (m n : Int) : Int := toInt (ofInt (m - n))

/-- A difference that is a word is made exactly. -/
theorem minus_of_holds {m n : Int} (h : holds (m - n)) :
  minus m n = m - n
  := toInt_ofInt_of_holds h

/-- A positive difference that is no word turns negative. -/
theorem minus_of_half_le {m n : Int} (hlow : half ≤ m - n) (hhigh : m - n < count) :
  minus m n = m - n - count
  := toInt_ofInt_of_half_le hlow hhigh

end Word

end ThreeAddress
