import Mathlib.Tactic.SplitIfs
import ThreeAddress.Diagnostic.Bag
import ThreeAddress.Proofs.Text.Numeral

/-!
# Keys of findings

Findings are told apart by their keys.  A key is one text, and the message at its end may have
colons and digits of its own.  But the identifier of a code has no colon, and the numbers of a span
end where their digits end, so a key is read in one way only.  Declared codes have identifiers of
their own, so findings with declared codes have the same key only if they agree in code, span and
message.
-/

namespace ThreeAddress

/-! ### Identifiers of codes -/

namespace Code

/-- Whether a code has a title of its own. -/
def IsDeclared (c : Code) : Prop := c.number ∈ titles.map Prod.fst

instance (c : Code) : Decidable c.IsDeclared :=
  inferInstanceAs (Decidable (c.number ∈ titles.map Prod.fst))

/-- The letters of all areas. -/
def areas : List String := ["LEX", "SYN", "GEN", "CFG", "ALC", "RUN", "OBS", "IO"]

variable {c c' : Code} {area : String}

/-- The number of a code that has an area has four digits. -/
theorem area?_eq_some {n : Nat} (h : area? n = some area) :
  1000 ≤ n ∧ n < 10000 ∧ area ∈ areas
  := by
  rw [area?] at h
  split_ifs at h
  all_goals
    obtain rfl := Option.some.inj h
    exact ⟨by omega, by omega, by decide⟩

theorem length_numeral (h : area? c.number = some area) :
  (Text.ofNat c.number).length = 4
  := by
  obtain ⟨hlow, hhigh, -⟩ := area?_eq_some h
  rw [Text.ofNat_of_le (by omega), Text.ofNat_of_le (n := c.number / 10) (by omega),
    Text.ofNat_of_le (n := c.number / 10 / 10) (by omega), Text.ofNat_of_lt (by omega)]
  rfl

theorem id_of_area?_eq_some (h : area? c.number = some area) :
  c.id = area ++ Text.ofNat c.number
  := by
  rw [id, h]
  dsimp only
  rw [Text.zeroPad, length_numeral h]
  rfl

theorem id_of_area?_eq_none (h : area? c.number = none) :
  c.id = "E0000"
  := by
  rw [id, h]

/-- An identifier consists of capital letters and digits. -/
theorem mem_id {b : UInt8} (h : b ∈ c.id) :
  Text.isUpperByte b = true ∨ 48 ≤ b.toNat ∧ b.toNat ≤ 57
  := by
  have hareas : ∀ area ∈ areas, (Text.ofString area).all Text.isUpperByte = true := by decide
  have hnone : (Text.ofString "E0000").all
      (fun b => Text.isUpperByte b || 48 ≤ b.toNat && b.toNat ≤ 57) = true := by decide
  cases harea : area? c.number with
  | none =>
      rw [id_of_area?_eq_none harea] at h
      simpa only [Bool.or_eq_true, Bool.and_eq_true, decide_eq_true_eq]
        using List.all_eq_true.mp hnone b h
  | some area =>
      rw [id_of_area?_eq_some harea, List.mem_append] at h
      obtain h | h := h
      · left
        exact List.all_eq_true.mp (hareas area (area?_eq_some harea).2.2) b h
      · right
        exact Text.mem_ofNat h

/-- The identifiers of codes without an area are shorter than all others. -/
theorem area?_eq_none_iff :
  area? c.number = none ↔ c.id.length = 5
  := by
  have hareas : ∀ area ∈ areas, 2 ≤ (Text.ofString area).length := by decide
  cases harea : area? c.number with
  | none =>
      rw [id_of_area?_eq_none harea]
      exact ⟨fun _ => rfl, fun _ => rfl⟩
  | some area =>
      have hlong := hareas area (area?_eq_some harea).2.2
      rw [id_of_area?_eq_some harea, List.length_append, length_numeral harea]
      constructor
      · intro h
        cases h
      · intro h
        omega

/-- Only codes without an area share an identifier. -/
theorem eq_or_area?_eq_none_of_id_eq (h : c.id = c'.id) :
  c = c' ∨ area? c.number = none ∧ area? c'.number = none
  := by
  by_cases hnone : area? c.number = none
  · right
    rw [area?_eq_none_iff, area?_eq_none_iff, ← h, and_self]
    exact area?_eq_none_iff.mp hnone
  · have hnone' : ¬ area? c'.number = none := by
      rwa [area?_eq_none_iff, ← h, ← area?_eq_none_iff]
    obtain ⟨area, harea⟩ := Option.ne_none_iff_exists'.mp hnone
    obtain ⟨area', harea'⟩ := Option.ne_none_iff_exists'.mp hnone'
    rw [id_of_area?_eq_some harea, id_of_area?_eq_some harea'] at h
    have hlength := (length_numeral harea).trans (length_numeral harea').symm
    left
    exact congrArg Code.mk (Text.ofNat_injective (List.append_inj_right' h hlength))

/-- Declared codes have identifiers of their own. -/
theorem IsDeclared.eq_of_id_eq (hc : c.IsDeclared) (hc' : c'.IsDeclared) (h : c.id = c'.id) :
  c = c'
  := by
  have hzero : ∀ n ∈ titles.map Prod.fst, area? n = none → n = 0 := by decide
  obtain h | ⟨harea, harea'⟩ := eq_or_area?_eq_none_of_id_eq h
  · exact h
  · exact congrArg Code.mk ((hzero _ hc harea).trans (hzero _ hc' harea').symm)

end Code

/-! ### Keys of findings -/

/-- A span and what stands behind a colon after it can be read in one way. -/
theorem Span.text_append_colon_inj {s s' : Span} {t t' : Text}
    (h : s.text ++ 58 :: t = s'.text ++ 58 :: t') :
  s = s' ∧ t = t'
  := by
  have htext : ∀ (s : Span) (t : Text), s.text ++ 58 :: t
      = Text.ofNat s.file.toNat ++ 58 :: (Text.ofNat s.start.toNat
        ++ 45 :: (Text.ofNat s.stop.toNat ++ 58 :: t)) := by
    intro s t
    rw [text, show Text.ofString ":" = [58] from rfl, show Text.ofString "-" = [45] from rfl]
    simp only [List.append_assoc, List.cons_append, List.nil_append]
  have hcolon := Text.notMem_ofNat (b := 58) (by decide)
  have hdash := Text.notMem_ofNat (b := 45) (by decide)
  rw [htext, htext] at h
  obtain ⟨hfile, h⟩ := Text.append_cons_inj (hcolon _) (hcolon _) h
  obtain ⟨hstart, h⟩ := Text.append_cons_inj (hdash _) (hdash _) h
  obtain ⟨hstop, htail⟩ := Text.append_cons_inj (hcolon _) (hcolon _) h
  have hword : ∀ {m n : UInt32}, Text.ofNat m.toNat = Text.ofNat n.toNat → m = n :=
    fun h => UInt32.toNat_inj.mp (Text.ofNat_injective h)
  refine ⟨?_, htail⟩
  calc s
    _ = ⟨s.file, s.start, s.stop⟩ := rfl
    _ = s' := by rw [hword hfile, hword hstart, hword hstop]

namespace Diagnostic

/-- Two findings say the same thing of the same place.  How grave they are and their notes do not
matter. -/
structure Repeats (d e : Diagnostic) : Prop where
  code : d.code = e.code
  span : d.span = e.span
  message : d.message = e.message

/-- Two findings are not told apart. -/
def SameKey (d e : Diagnostic) : Prop := d.key = e.key

variable {d e : Diagnostic}

theorem Repeats.sameKey (h : d.Repeats e) :
  d.SameKey e
  := by
  rw [SameKey, key, key, h.code, h.span, h.message]

/-- Whatever the messages are, findings with declared codes are told apart unless they say the same
thing of the same place. -/
theorem SameKey.repeats (h : d.SameKey e) (hd : d.code.IsDeclared) (he : e.code.IsDeclared) :
  d.Repeats e
  := by
  have hkey : ∀ d : Diagnostic, d.key = d.code.id ++ 58 :: (d.span.text ++ 58 :: d.message) := by
    intro d
    rw [key, show Text.ofString ":" = [58] from rfl]
    simp only [List.append_assoc, List.cons_append, List.nil_append]
  have hcolon : ∀ c : Code, 58 ∉ c.id := fun c hmem => absurd (Code.mem_id hmem) (by decide)
  rw [SameKey, hkey, hkey] at h
  obtain ⟨hid, h⟩ := Text.append_cons_inj (hcolon _) (hcolon _) h
  obtain ⟨hspan, hmessage⟩ := Span.text_append_colon_inj h
  exact ⟨hd.eq_of_id_eq he hid, hspan, hmessage⟩

end Diagnostic

end ThreeAddress
