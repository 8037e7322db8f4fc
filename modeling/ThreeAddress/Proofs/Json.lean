import ThreeAddress.Json
import ThreeAddress.Proofs.Text.Glyphs
import ThreeAddress.Proofs.Text.Numeral

/-!
# Written documents are well formed

The grammar of JSON documents as texts, and what is written on one line is in it.  A text is escaped
character by character, whatever bytes it has: its characters are those of well-formed encodings, or
the replacement character.
-/

namespace ThreeAddress

/-! ### The grammar -/

namespace Json

/-- White space between the tokens of a document. -/
def IsBlank (t : Text) : Prop := ∀ b ∈ t, b = 32 ∨ b = 9 ∨ b = 10 ∨ b = 13

/-- A decimal digit. -/
def IsDigit (b : UInt8) : Prop := 48 ≤ b.toNat ∧ b.toNat ≤ 57

/-- A hexadecimal digit. -/
def IsHexDigit (b : UInt8) : Prop :=
  IsDigit b ∨ 65 ≤ b.toNat ∧ b.toNat ≤ 70 ∨ 97 ≤ b.toNat ∧ b.toNat ≤ 102

/-- One digit or more. -/
def IsDigits (t : Text) : Prop := t ≠ [] ∧ ∀ b ∈ t, IsDigit b

/-- A code point that is a character. -/
def IsScalar (c : Nat) : Prop := c < 0xD800 ∨ 0xE000 ≤ c ∧ c < 0x110000

/-- A character that stands for itself in a string. -/
structure IsUnescaped (c : Nat) : Prop where
  scalar : IsScalar c
  visible : 0x20 ≤ c
  quote : c ≠ 34
  backslash : c ≠ 92

/-- What stands between the quotes of a string. -/
inductive IsBody : Text → Prop
  | nil : IsBody []
  | char {c : Nat} {t : Text} (hc : IsUnescaped c) (ht : IsBody t) : IsBody (Text.ofCode c ++ t)
  | escape {b : UInt8} {t : Text} (hb : b ∈ Text.ofString "\"\\/bfnrt") (ht : IsBody t) :
    IsBody (92 :: b :: t)
  | code {digits t : Text} (hlength : digits.length = 4) (hdigits : ∀ b ∈ digits, IsHexDigit b)
    (ht : IsBody t) : IsBody ("\\u" ++ digits ++ t)

/-- A string. -/
inductive IsString : Text → Prop
  | intro {t : Text} (h : IsBody t) : IsString ("\"" ++ t ++ "\"")

/-- A number without sign, fraction and exponent. -/
inductive IsWhole : Text → Prop
  | zero : IsWhole [48]
  | digits {b : UInt8} {t : Text} (hb : IsDigit b) (hzero : b ≠ 48) (ht : ∀ d ∈ t, IsDigit d) :
    IsWhole (b :: t)

/-- A number: sign, whole part, fraction and exponent. -/
inductive IsNumber : Text → Prop
  | intro {sign whole fraction exponent : Text} (hsign : sign = [] ∨ sign = [45])
    (hwhole : IsWhole whole)
    (hfraction : fraction = [] ∨ ∃ digits, IsDigits digits ∧ fraction = 46 :: digits)
    (hexponent : exponent = [] ∨ ∃ e sign digits, (e = 101 ∨ e = 69)
      ∧ sign ∈ [[], [43], [45]] ∧ IsDigits digits ∧ exponent = e :: (sign ++ digits)) :
    IsNumber (sign ++ whole ++ fraction ++ exponent)

/-- A key, with white space around it. -/
inductive IsKey : Text → Prop
  | intro {front t back : Text} (hfront : IsBlank front) (h : IsString t) (hback : IsBlank back) :
    IsKey (front ++ t ++ back)

/-- A document, with white space around its values. -/
inductive IsDocument : Text → Prop
  | literal {t : Text} (h : t ∈ ["null", "true", "false"].map Text.ofString) : IsDocument t
  | number {t : Text} (h : IsNumber t) : IsDocument t
  | string {t : Text} (h : IsString t) : IsDocument t
  | emptyArray {t : Text} (h : IsBlank t) : IsDocument ("[" ++ t ++ "]")
  | array {items : List Text} (hne : items ≠ []) (h : ∀ t ∈ items, IsDocument t) :
    IsDocument ("[" ++ Text.join "," items ++ "]")
  | emptyObject {t : Text} (h : IsBlank t) : IsDocument ("\x7b" ++ t ++ "\x7d")
  | object {fields : List (Text × Text)} (hne : fields ≠ []) (hkeys : ∀ f ∈ fields, IsKey f.1)
    (h : ∀ f ∈ fields, IsDocument f.2) :
    IsDocument ("\x7b" ++ Text.join "," (fields.map fun f => f.1 ++ ":" ++ f.2) ++ "\x7d")
  | blank {front t back : Text} (hfront : IsBlank front) (h : IsDocument t) (hback : IsBlank back) :
    IsDocument (front ++ t ++ back)

theorem isBlank_nil :
  IsBlank []
  := fun _ hb => nomatch hb

end Json

/-! ### Strings -/

namespace Glyph

/-- An encoding of three bytes is none of a surrogate. -/
theorem apart_of_secondOfThree {a b : UInt8} (ha : 0xE0 ≤ a ∧ a ≤ 0xEF) (hb : secondOfThree a b) :
  a.toNat % 16 * 64 + payload b < 0x360 ∨ 0x380 ≤ a.toNat % 16 * 64 + payload b
  := by
  rw [secondOfThree] at hb
  rw [payload]
  split_ifs at hb with h h'
  all_goals
    simp only [isContinuation, Bool.and_eq_true, decide_eq_true_eq, UInt8.le_iff_toNat_le,
      ← UInt8.toNat_inj, UInt8.reduceToNat] at *
    omega

/-- An encoding of four bytes ends with the last plane. -/
theorem lt_of_secondOfFour {a b : UInt8} (ha : 0xF0 ≤ a ∧ a ≤ 0xF4) (hb : secondOfFour a b) :
  a.toNat % 8 * 64 + payload b < 0x110
  := by
  rw [secondOfFour] at hb
  rw [payload]
  split_ifs at hb with h h'
  all_goals
    simp only [isContinuation, Bool.and_eq_true, decide_eq_true_eq, UInt8.le_iff_toNat_le,
      ← UInt8.toNat_inj, UInt8.reduceToNat] at *
    omega

/-- What is read as a character is one. -/
theorem isScalar_first (a : UInt8) (rest : Text) :
  Json.IsScalar (first a rest).code
  := by
  have hpayload : ∀ b : UInt8, payload b < 64 := fun b => Nat.mod_lt _ (by decide)
  have hstray : Json.IsScalar replacementCode := .inr (by decide)
  rw [Json.IsScalar]
  fun_cases first a rest with
  | case1 _ ha =>
      simp only [UInt8.lt_iff_toNat_lt, UInt8.reduceToNat] at ha
      dsimp only
      omega
  | case2 ha hlead b _ hb =>
      have hb := hpayload b
      dsimp only
      omega
  | case5 ha _ hlead b c _ hbc =>
      simp only [Bool.and_eq_true, decide_eq_true_eq] at hlead hbc
      have hapart := apart_of_secondOfThree hlead hbc.1
      have hb := hpayload b
      have hc := hpayload c
      dsimp only
      omega
  | case8 ha _ _ hlead b c d _ hbcd =>
      simp only [Bool.and_eq_true, decide_eq_true_eq] at hlead hbcd
      have hle := le_of_secondOfFour hlead hbcd.1.1
      have hlt := lt_of_secondOfFour hlead hbcd.1.1
      have hc := hpayload c
      have hd := hpayload d
      dsimp only
      omega
  | _ => exact hstray

end Glyph

theorem Text.isScalar_of_mem_glyphs {t : Text} {g : Glyph} (h : g ∈ t.glyphs) :
  Json.IsScalar g.code
  := by
  induction t using glyphs_induction with
  | nil =>
      rw [glyphs] at h
      cases h
  | cons a t rest ht hglyphs ih =>
      rw [hglyphs, List.mem_cons] at h
      obtain rfl | h := h
      · exact Glyph.isScalar_first a t
      · exact ih h

namespace Json

theorem isHexDigit_hexDigit {n : Nat} (h : n < 16) :
  IsHexDigit (Text.hexDigit n)
  := by
  have hall : ∀ n < 16, 48 ≤ (Text.hexDigit n).toNat ∧ (Text.hexDigit n).toNat ≤ 57
      ∨ 97 ≤ (Text.hexDigit n).toNat ∧ (Text.hexDigit n).toNat ≤ 102 := by decide
  exact (hall n h).imp_right .inr

theorem length_hex (width n : Nat) :
  (Text.hex width n).length = width
  := by
  induction width generalizing n with
  | zero => rfl
  | succ width ih => rw [Text.hex, List.length_append, ih, List.length_singleton]

theorem isHexDigit_of_mem_hex {width n : Nat} {b : UInt8} (h : b ∈ Text.hex width n) :
  IsHexDigit b
  := by
  induction width generalizing n with
  | zero => cases h
  | succ width ih =>
      rw [Text.hex, List.mem_append, List.mem_singleton] at h
      obtain h | rfl := h
      · exact ih h
      · exact isHexDigit_hexDigit (Nat.mod_lt n (by decide))

/-- What a character is written as may stand in a string. -/
theorem isBody_escapeCode {c : Nat} (hc : IsScalar c) {t : Text} (ht : IsBody t) :
  IsBody (escapeCode c ++ t)
  := by
  have hletter : ∀ b ∈ Text.ofString "\"\\/bfnrt", IsBody (92 :: b :: t) :=
    fun b hb => .escape hb ht
  rw [escapeCode]
  split_ifs with h34 h92 h8 h12 h10 h13 h9 hcode
  · exact hletter 34 (by decide)
  · exact hletter 92 (by decide)
  · exact hletter 98 (by decide)
  · exact hletter 102 (by decide)
  · exact hletter 110 (by decide)
  · exact hletter 114 (by decide)
  · exact hletter 116 (by decide)
  · exact .code (length_hex 4 c) (fun b => isHexDigit_of_mem_hex) ht
  · exact .char ⟨hc, by omega, h34, h92⟩ ht

theorem isString_quote (t : Text) :
  IsString (quote t)
  := by
  have hbody : ∀ gs : List Glyph, (∀ g ∈ gs, IsScalar g.code) →
      IsBody (gs.flatMap fun g => escapeCode g.code) := by
    intro gs hgs
    induction gs with
    | nil => exact .nil
    | cons g gs ih =>
        obtain ⟨hg, hgs⟩ := List.forall_mem_cons.mp hgs
        rw [List.flatMap_cons]
        exact isBody_escapeCode hg (ih hgs)
  exact .intro (hbody t.glyphs fun g => Text.isScalar_of_mem_glyphs)

/-! ### Numbers -/

/-- A numeral starts with a zero only if it is that of zero. -/
theorem exists_ofNat {n : Nat} (h : 0 < n) :
  ∃ b t, Text.ofNat n = b :: t ∧ b ≠ 48
  := by
  have hdigits : ∀ n < 10, 0 < n → Text.digit n ≠ 48 := by decide
  induction n using Nat.strongRecOn with
  | _ n ih =>
      obtain hn | hn := Nat.lt_or_ge n 10
      · exact ⟨_, _, Text.ofNat_of_lt hn, hdigits n hn h⟩
      · obtain ⟨b, t, ht, hb⟩ := ih (n / 10) (by omega) (by omega)
        refine ⟨b, t ++ [Text.digit (n % 10)], ?_, hb⟩
        rw [Text.ofNat_of_le hn, ht, List.cons_append]

theorem isWhole_ofNat (n : Nat) :
  IsWhole (Text.ofNat n)
  := by
  obtain rfl | h := Nat.eq_zero_or_pos n
  · rw [Text.ofNat_of_lt (by decide)]
    exact .zero
  · obtain ⟨b, t, ht, hb⟩ := exists_ofNat h
    have hdigits : ∀ d ∈ b :: t, IsDigit d := fun d hd => Text.mem_ofNat (ht ▸ hd)
    rw [List.forall_mem_cons] at hdigits
    rw [ht]
    exact .digits hdigits.1 hb hdigits.2

theorem isNumber_of_isWhole (sign : Text) {t : Text} (hsign : sign = [] ∨ sign = [45])
    (h : IsWhole t) :
  IsNumber (sign ++ t)
  := by
  have hnumber := IsNumber.intro hsign h (.inl rfl) (.inl rfl)
  rwa [List.append_nil, List.append_nil] at hnumber

theorem isNumber_ofInt (n : Int) :
  IsNumber (Text.ofInt n)
  := by
  cases n with
  | ofNat n => exact isNumber_of_isWhole [] (.inl rfl) (isWhole_ofNat n)
  | negSucc n => exact isNumber_of_isWhole [45] (.inr rfl) (isWhole_ofNat (n + 1))

/-! ### Values on one line -/

theorem isDocument_string (t : Text) :
  IsDocument (compact (.string t))
  := by
  rw [compact]
  exact .string (isString_quote t)

theorem isDocument_nat (n : Nat) :
  IsDocument (compact (nat n))
  := by
  rw [nat, compact]
  exact .number (isNumber_of_isWhole [] (.inl rfl) (isWhole_ofNat n))

theorem isDocument_int (n : Int) :
  IsDocument (compact (int n))
  := by
  rw [int, compact]
  exact .number (isNumber_ofInt n)

theorem compactFields_eq (fields : List (Text × Json)) :
  compactFields fields
    = Text.join "," ((fields.map fun f => (quote f.1, compact f.2)).map fun f => f.1 ++ ":" ++ f.2)
  := by
  induction fields with
  | nil => rfl
  | cons f fields ih =>
      obtain ⟨k, v⟩ := f
      cases fields with
      | nil => rfl
      | cons f fields =>
          change quote k ++ ":" ++ compact v ++ "," ++ compactFields (f :: fields) = _
          rw [ih]
          rfl

theorem isDocument_object {fields : List (Text × Json)} (h : ∀ f ∈ fields, IsDocument f.2.compact) :
  IsDocument (compact (.object fields))
  := by
  rw [compact, compactFields_eq]
  obtain rfl | hne := eq_or_ne fields []
  · exact .emptyObject isBlank_nil
  · have hkeys : ∀ k : Text, IsKey (quote k) := by
      intro k
      have hkey := IsKey.intro isBlank_nil (isString_quote k) isBlank_nil
      rwa [List.nil_append, List.append_nil] at hkey
    refine .object (by simpa using hne) ?_ ?_
    · intro f hf
      obtain ⟨g, -, rfl⟩ := List.mem_map.mp hf
      exact hkeys g.1
    · intro f hf
      obtain ⟨g, hg, rfl⟩ := List.mem_map.mp hf
      exact h g hg

end Json

end ThreeAddress
