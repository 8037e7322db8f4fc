import Mathlib.Data.List.Nodup
import Mathlib.Data.Set.Function
import ThreeAddress.Pipeline.Artifacts
import ThreeAddress.Proofs.Text.Numeral

/-!
# Keys of artifacts

The text whose digest is the key of a file's artifacts tells the digest of the file's content and
the register file.  So keys tell files and register files apart as far as digests tell texts apart.
The same holds of any digest with further parts, as long as no part has a zero byte.  In a key only
the last part may have one: the parts before it are numerals.
-/

namespace ThreeAddress

namespace Text

/-- The numeral of an integer has no zero byte. -/
theorem zero_notMem_ofInt (n : Int) :
  (0 : UInt8) ∉ ofInt n
  := by
  have hnat : ∀ k, (0 : UInt8) ∉ ofNat k := notMem_ofNat (by decide)
  cases n with
  | ofNat k => exact hnat k
  | negSucc k =>
      rw [ofInt, List.mem_cons, not_or]
      exact ⟨by decide, hnat (k + 1)⟩

/-- Integers with the same numeral are equal. -/
theorem ofInt_injective {m n : Int} (h : ofInt m = ofInt n) :
  m = n
  := by
  have hsign : ∀ k l, ofNat k ≠ byte '-' :: ofNat l := by
    intro k l heq
    have := mem_ofNat (heq ▸ List.mem_cons_self : byte '-' ∈ ofNat k)
    revert this
    decide
  cases m with
  | ofNat k =>
      cases n with
      | ofNat l => rw [ofNat_injective h]
      | negSucc l => exact absurd h (hsign k (l + 1))
  | negSucc k =>
      cases n with
      | ofNat l => exact absurd h.symm (hsign l (k + 1))
      | negSucc l =>
          have hsucc := ofNat_injective (List.tail_eq_of_cons_eq h)
          rw [Nat.succ.inj hsucc]

/-- Parts without zero bytes are the pieces between the zero bytes in front of them. -/
theorem splitOn_zero {s : Text} {parts : List Text} (hs : (0 : UInt8) ∉ s)
    (h : ∀ p ∈ parts, (0 : UInt8) ∉ p) :
  (s ++ parts.flatMap fun p => 0 :: p).splitOn 0 = s :: parts
  := by
  induction parts generalizing s with
  | nil => rw [List.flatMap_nil, List.append_nil, List.splitOn_eq_singleton hs]
  | cons p parts ih =>
      rw [List.flatMap_cons, List.cons_append, List.splitOn_append_cons_self_of_not_mem hs,
        ih (h p List.mem_cons_self) fun q hq => h q (List.mem_cons_of_mem p hq)]

/-! ### Hexadecimal digits -/

theorem ofHexBytes_hex (b : UInt8) (t : Text) :
  ofHexBytes (hex 2 b.toNat ++ t) = b :: ofHexBytes t
  := by
  have hdigits : ∀ n < 256, (hexDigitValue (hexDigit (n / 16 % 16)) * 16
      + hexDigitValue (hexDigit (n % 16))).toUInt8.toNat = n := by decide +kernel
  change UInt8.ofNat _ :: _ = _
  congr 1
  apply UInt8.toNat.inj
  exact hdigits b.toNat b.toNat_lt

theorem ofHexBytes_hexBytes (t : Text) :
  ofHexBytes (hexBytes t) = t
  := by
  induction t with
  | nil => rfl
  | cons b t ih =>
      change ofHexBytes (hex 2 b.toNat ++ hexBytes t) = _
      rw [ofHexBytes_hex, ih]

/-- Different texts have different hexadecimal digits. -/
theorem hexBytes_injective {s t : Text} (h : hexBytes s = hexBytes t) :
  s = t
  := by
  rw [← ofHexBytes_hexBytes s, h, ofHexBytes_hexBytes]

/-- Hexadecimal digits are digits or letters. -/
theorem mem_hexBytes {t : Text} {b : UInt8} (h : b ∈ hexBytes t) :
  48 ≤ b.toNat
  := by
  have hdigit : ∀ n < 16, 48 ≤ (hexDigit n).toNat := by decide
  obtain ⟨a, -, hb⟩ := List.mem_flatMap.mp h
  simp only [hex, List.nil_append, List.cons_append, List.mem_cons, List.not_mem_nil, or_false]
    at hb
  obtain rfl | rfl := hb
  · exact hdigit _ (Nat.mod_lt _ (by decide))
  · exact hdigit _ (Nat.mod_lt _ (by decide))

end Text

theorem Digest.length_bigEndian (width n : Nat) :
  (bigEndian width n).length = width
  := by
  induction width generalizing n with
  | zero => rfl
  | succ width ih => rw [bigEndian, List.length_append, ih, List.length_singleton]

theorem Digest.length_sha256 (t : Text) :
  (sha256 t).length = 32
  := by
  simp only [sha256, List.flatMap_cons, List.flatMap_nil, List.length_append, List.length_nil,
    length_bigEndian]

namespace Artifacts

/-! ### Hashed texts -/

/-- The text whose digest is that of a digest and further parts. -/
def combinedText (content : Digest) (parts : List Text) : Text :=
  content ++ parts.flatMap fun p => 0 :: p

theorem combine_eq (content : Digest) (parts : List Text) :
  combine content parts = Digest.sha256 (combinedText content parts)
  := rfl

/-- The parts of a key. -/
def keyParts (file : RegisterFile) : List Text :=
  [Text.ofNat version, Text.ofInt file.normalize.count, file.normalize.stem]

theorem key_eq_combine (content : Digest) (file : RegisterFile) :
  key content file = combine content (keyParts file)
  := rfl

/-- Digests and parts without zero bytes are told by the text made of them. -/
theorem combinedText_inj {c c' : Digest} {parts parts' : List Text}
    (hlength : c.length = c'.length)
    (h : ∀ p ∈ parts, (0 : UInt8) ∉ p) (h' : ∀ p ∈ parts', (0 : UInt8) ∉ p)
    (heq : combinedText c parts = combinedText c' parts') :
  c = c' ∧ parts = parts'
  := by
  obtain ⟨hcontent, hparts⟩ := List.append_inj heq hlength
  have hpieces := congrArg (List.splitOn 0) (congrArg ([] ++ ·) hparts)
  rw [Text.splitOn_zero List.not_mem_nil h, Text.splitOn_zero List.not_mem_nil h'] at hpieces
  exact ⟨hcontent, List.tail_eq_of_cons_eq hpieces⟩

/-- The text of a key tells the digest and the register file.  The stem may have zero bytes, for
nothing follows it. -/
theorem combinedText_keyParts_inj {c c' : Digest} {file file' : RegisterFile}
    (hlength : c.length = c'.length)
    (heq : combinedText c (keyParts file) = combinedText c' (keyParts file')) :
  c = c' ∧ file.normalize = file'.normalize
  := by
  obtain ⟨hcontent, hparts⟩ := List.append_inj heq hlength
  simp only [keyParts, List.flatMap_cons, List.flatMap_nil, List.append_nil, List.cons_append,
    List.append_cancel_left_eq, List.cons.injEq, true_and] at hparts
  obtain ⟨hcount, hstem⟩ := Text.append_cons_inj (Text.zero_notMem_ofInt _)
    (Text.zero_notMem_ofInt _) hparts
  exact ⟨hcontent, congrArg₂ RegisterFile.mk (Text.ofInt_injective hcount) hstem⟩

/-- The text whose digest is the key of artifacts. -/
def keyText (content : Text) (file : RegisterFile) : Text :=
  Digest.sha256 content ++ [Text.ofNat version, Text.ofInt file.normalize.count,
    file.normalize.stem].flatMap fun p => 0 :: p

theorem key_eq (content : Text) (file : RegisterFile) :
  key (Digest.sha256 content) file = Digest.sha256 (keyText content file)
  := rfl

/-- The text tells the digest of the content and the register file. -/
theorem keyText_inj {content content' : Text} {file file' : RegisterFile}
    (h : keyText content file = keyText content' file') :
  Digest.sha256 content = Digest.sha256 content' ∧ file.normalize = file'.normalize
  := combinedText_keyParts_inj
    ((Digest.length_sha256 content).trans (Digest.length_sha256 content').symm) h

/-! ### Keys -/

/-- Keys tell digests and register files apart, and nothing else: among texts that their digests
tell apart, two keys are equal exactly if the digests of the contents and the register files in
their normal forms are.  The zero byte tells further parts without zero bytes apart. -/
theorem keys_separate {S : Set Text} (hS : S.InjOn Digest.sha256) :
  (∀ (c c' : Digest) (file file' : RegisterFile), c.length = 32 → c'.length = 32 →
    combinedText c (keyParts file) ∈ S → combinedText c' (keyParts file') ∈ S →
    (key c file = key c' file' ↔ c = c' ∧ file.normalize = file'.normalize)) ∧
  (∀ (c c' : Digest) (parts parts' : List Text), c.length = 32 → c'.length = 32 →
    (∀ p ∈ parts, (0 : UInt8) ∉ p) → (∀ p ∈ parts', (0 : UInt8) ∉ p) →
    combinedText c parts ∈ S → combinedText c' parts' ∈ S →
    combine c parts = combine c' parts' → c = c' ∧ parts = parts')
  := by
  refine ⟨fun c c' file file' hc hc' hS₁ hS₂ => ⟨fun heq => ?_, ?_⟩,
    fun c c' parts parts' hc hc' h h' hS₁ hS₂ heq => ?_⟩
  · rw [key_eq_combine, key_eq_combine, combine_eq, combine_eq] at heq
    exact combinedText_keyParts_inj (hc.trans hc'.symm) (hS hS₁ hS₂ heq)
  · rintro ⟨rfl, hfile⟩
    rw [key, key, hfile]
  · rw [combine_eq, combine_eq] at heq
    exact combinedText_inj (hc.trans hc'.symm) h h' (hS hS₁ hS₂ heq)

/-- Keys and combined digests of the zero digest: a register file with nothing filled in has the
key of the default one, a stem that is a zero byte has another, and where parts end matters. -/
theorem zeroDigest_keys :
  let texts := [combinedText Digest.zero (keyParts ⟨8, "r"⟩),
    combinedText Digest.zero (keyParts ⟨8, [0]⟩), combinedText Digest.zero ["ab", "c"],
    combinedText Digest.zero ["a", "bc"]]
  Set.InjOn Digest.sha256 { t | t ∈ texts } ∧
    key Digest.zero ⟨-3, []⟩ = key Digest.zero ⟨8, "r"⟩ ∧
    key Digest.zero ⟨8, [0]⟩ ≠ key Digest.zero ⟨-3, []⟩ ∧
    combine Digest.zero ["ab", "c"] ≠ combine Digest.zero ["a", "bc"]
  := by
  intro texts
  have hS : Set.InjOn Digest.sha256 { t | t ∈ texts } := by
    have hnodup : (texts.map Digest.sha256).Nodup := by decide +kernel
    intro s hs t ht heq
    exact List.inj_on_of_nodup_map hnodup hs ht heq
  have hunset : combinedText Digest.zero (keyParts ⟨-3, []⟩) ∈ texts := by decide +kernel
  have hdefault : combinedText Digest.zero (keyParts ⟨8, "r"⟩) ∈ texts := by decide +kernel
  have hstem : combinedText Digest.zero (keyParts ⟨8, [0]⟩) ∈ texts := by decide +kernel
  have hab : combinedText Digest.zero ["ab", "c"] ∈ texts := by decide +kernel
  have hbc : combinedText Digest.zero ["a", "bc"] ∈ texts := by decide +kernel
  obtain ⟨hkeys, hcombine⟩ := keys_separate hS
  refine ⟨hS, ?_, ?_, ?_⟩
  · exact (hkeys _ _ _ _ rfl rfl hunset hdefault).mpr ⟨rfl, rfl⟩
  · intro heq
    have := (hkeys _ _ _ _ rfl rfl hstem hunset).mp heq
    revert this
    decide
  · intro heq
    have := hcombine _ _ _ _ rfl rfl (by decide) (by decide) hab hbc heq
    revert this
    decide

end Artifacts

end ThreeAddress
