import Mathlib
import ThreeAddress.Proofs.Text.Glyphs
import ThreeAddress.Text.Width

/-!
# Columns of a text

A text is cut into clusters, so a text with a visible ASCII character takes a column at least: the
cluster that has the character does.  A text of such characters takes a column for each.
-/

namespace ThreeAddress

/-- A visible ASCII character or a blank. -/
def IsVisible (b : UInt8) : Prop := 0x20 ≤ b.toNat ∧ b.toNat < 0x7F

instance : DecidablePred IsVisible := fun b =>
  inferInstanceAs (Decidable (0x20 ≤ b.toNat ∧ b.toNat < 0x7F))

namespace Glyph

theorem first_of_lt {a : UInt8} (h : a.toNat < 0x80) (t : Text) :
  first a t = ⟨a.toNat, [a], true⟩
  := by
  rw [first.eq_def, if_pos (UInt8.lt_iff_toNat_lt.mpr h)]

theorem le_of_isContinuation {b : UInt8} (h : isContinuation b = true) :
  0x80 ≤ b.toNat
  := by
  simp only [isContinuation, Bool.and_eq_true, decide_eq_true_eq, UInt8.le_iff_toNat_le,
    UInt8.reduceToNat] at h
  exact h.1

theorem le_of_second {a b : UInt8} (h : secondOfThree a b = true ∨ secondOfFour a b = true) :
  0x80 ≤ b.toNat
  := by
  rw [secondOfThree, secondOfFour] at h
  split_ifs at h
  all_goals
    simp only [isContinuation, Bool.and_eq_true, decide_eq_true_eq, UInt8.le_iff_toNat_le,
      UInt8.reduceToNat] at h
    omega

/-- No byte of an encoding of several bytes is small. -/
theorem le_of_mem_first {a : UInt8} (ha : 0x80 ≤ a.toNat) (t : Text) :
  ∀ b ∈ (first a t).bytes, 0x80 ≤ b.toNat
  := by
  fun_cases first a t with
  | case1 _ hlt =>
      rw [UInt8.lt_iff_toNat_lt] at hlt
      exact absurd ha (Nat.not_le.mpr hlt)
  | case2 _ _ c _ hc =>
      have hc := le_of_isContinuation hc
      simp [ha, hc]
  | case5 _ _ _ c d _ hcd =>
      rw [Bool.and_eq_true] at hcd
      have hc := le_of_second (.inl hcd.1)
      have hd := le_of_isContinuation hcd.2
      simp [ha, hc, hd]
  | case8 _ _ _ _ c d e _ hcde =>
      simp only [Bool.and_eq_true] at hcde
      have hc := le_of_second (.inr hcde.1.1)
      have hd := le_of_isContinuation hcde.1.2
      have he := le_of_isContinuation hcde.2
      simp [ha, hc, hd, he]
  | _ => simp [stray, ha]

/-- A character that has a small byte is that byte. -/
theorem code_first_of_mem {a b : UInt8} {t : Text} (h : b ∈ (first a t).bytes)
    (hb : b.toNat < 0x80) :
  (first a t).code = b.toNat
  := by
  have hlt : a.toNat < 0x80 := by
    by_contra hle
    exact absurd (le_of_mem_first (Nat.not_lt.mp hle) t b h) (Nat.not_le.mpr hb)
  rw [first_of_lt hlt, List.mem_singleton] at h
  rw [first_of_lt hlt, h]

end Glyph

namespace Text

/-- A small byte of a text is a character of it. -/
theorem exists_glyph_of_mem {t : Text} {b : UInt8} (h : b ∈ t) (hb : b.toNat < 0x80) :
  ∃ g ∈ t.glyphs, g.code = b.toNat
  := by
  induction t using glyphs_induction with
  | nil => cases h
  | cons a t rest ht hglyphs ih =>
      rw [ht, List.mem_append] at h
      rw [hglyphs]
      obtain h | h := h
      · exact ⟨_, List.mem_cons_self, Glyph.code_first_of_mem h hb⟩
      · obtain ⟨g, hg, hcode⟩ := ih h
        exact ⟨g, List.mem_cons_of_mem _ hg, hcode⟩

/-! ### Clusters -/

/-- Clusters have all bytes of the text. -/
theorem flatten_clustersFrom (s : ClusterState) (cluster t : Text) :
  (clustersFrom s cluster t).flatten = cluster ++ t
  := by
  fun_induction clustersFrom s cluster t with
  | case1 s cluster => simp
  | case2 s cluster b rest hunit => simp
  | case3 s cluster b rest n hunit k unit hext ih =>
      rw [ih, List.append_assoc, List.cons_append, List.take_append_drop]
  | case4 s cluster b rest n hunit k unit hext ih =>
      rw [List.flatten_cons, ih, List.cons_append, List.take_append_drop]

theorem flatten_clusters (t : Text) :
  t.clusters.flatten = t
  := by
  rw [clusters.eq_def]
  split
  · rfl
  · split
    · simp
    · rw [flatten_clustersFrom, List.cons_append, List.take_append_drop]

theorem columns_eq_sum (t : Text) :
  t.columns = (t.clusters.map clusterWidth).sum
  := by rw [columns, List.sum_eq_foldl]

/-! ### Visible characters -/

theorem codeWidth_of_isVisible {b : UInt8} (h : IsVisible b) :
  codeWidth b.toNat = 1
  := by
  obtain ⟨hle, hlt⟩ := h
  rw [codeWidth, if_neg (by omega), if_neg, if_pos (by omega)]
  simp only [Bool.or_eq_true, Bool.and_eq_true, decide_eq_true_eq, beq_iff_eq]
  omega

theorem clusterWidth_pos {cluster : Text} {b : UInt8} (h : b ∈ cluster) (hb : IsVisible b) :
  0 < clusterWidth cluster
  := by
  obtain ⟨g, hg, hcode⟩ := exists_glyph_of_mem h (Nat.lt_trans hb.2 (by decide))
  have hsome : ((cluster.glyphs.map fun g => codeWidth g.code).find? (0 < ·)).isSome := by
    rw [List.find?_isSome]
    refine ⟨1, List.mem_map.mpr ⟨g, hg, ?_⟩, by decide⟩
    rw [hcode, codeWidth_of_isVisible hb]
  obtain ⟨n, hn⟩ := Option.isSome_iff_exists.mp hsome
  have hpos := List.find?_some hn
  rw [clusterWidth, hn, Option.getD_some]
  exact of_decide_eq_true hpos

/-- A text that has a visible character. -/
def HasVisible (t : Text) : Prop := ∃ b ∈ t, IsVisible b

theorem HasVisible.append_left {t : Text} (h : t.HasVisible) (u : Text) :
  HasVisible (t ++ u)
  := h.imp fun _ ⟨hb, hvisible⟩ => ⟨List.mem_append_left u hb, hvisible⟩

theorem HasVisible.append_right {u : Text} (t : Text) (h : u.HasVisible) :
  HasVisible (t ++ u)
  := h.imp fun _ ⟨hb, hvisible⟩ => ⟨List.mem_append_right t hb, hvisible⟩

theorem hasVisible_of_any {t : Text} (h : t.any (fun b => decide (IsVisible b)) = true) :
  t.HasVisible
  := by
  obtain ⟨b, hb, hvisible⟩ := List.any_eq_true.mp h
  exact ⟨b, hb, of_decide_eq_true hvisible⟩

/-- A text with a visible character takes a column. -/
theorem HasVisible.columns_pos {t : Text} (h : t.HasVisible) :
  0 < t.columns
  := by
  obtain ⟨b, h, hb⟩ := h
  rw [← flatten_clusters t] at h
  obtain ⟨cluster, hcluster, hmem⟩ := List.mem_flatten.mp h
  have hpos := clusterWidth_pos hmem hb
  obtain ⟨front, back, hclusters⟩ := List.append_of_mem hcluster
  rw [columns_eq_sum, hclusters, List.map_append, List.sum_append, List.map_cons, List.sum_cons]
  omega

/-- A visible character is a unit of its own. -/
theorem unitSize?_of_isVisible {b : UInt8} (h : IsVisible b) (rest : Text) :
  unitSize? b rest = some 0
  := by
  have hlt : b < 0xC2 := by
    rw [UInt8.lt_iff_toNat_lt]
    exact Nat.lt_trans h.2 (by decide)
  simp [unitSize?, hlt]

theorem firstClass_of_isVisible {b : UInt8} (h : IsVisible b) (rest : Text) :
  firstClass b rest = .other
  := by
  obtain ⟨hle, hlt⟩ := h
  rw [firstClass, Glyph.first_of_lt (Nat.lt_trans hlt (by decide))]
  simp only [if_true]
  rw [BreakClass.ofCode, if_neg (by omega), if_neg (by omega), if_neg (by omega), if_pos hlt]

/-- All bytes are visible characters or blanks. -/
def AllVisible (t : Text) : Prop := ∀ b ∈ t, IsVisible b

theorem allVisible_of_all {t : Text} (h : t.all (fun b => decide (IsVisible b)) = true) :
  t.AllVisible
  := fun b hb => of_decide_eq_true (List.all_eq_true.mp h b hb)

theorem AllVisible.append {t u : Text} (ht : t.AllVisible) (hu : u.AllVisible) :
  AllVisible (t ++ u)
  := List.forall_mem_append.mpr ⟨ht, hu⟩

theorem allVisible_flatten {pieces : List Text} (h : ∀ piece ∈ pieces, piece.AllVisible) :
  AllVisible pieces.flatten
  := by
  intro b hb
  obtain ⟨piece, hpiece, hmem⟩ := List.mem_flatten.mp hb
  exact h piece hpiece b hmem

theorem allVisible_blanks (n : Nat) :
  (blanks n).AllVisible
  := by
  intro b hb
  rw [List.eq_of_mem_replicate hb]
  exact ⟨by decide, by decide⟩

theorem getElem?_blanks {n i : Nat} (h : i < n) :
  (blanks n)[i]? = some (byte ' ')
  := List.getElem?_replicate_of_lt h

theorem clustersFrom_of_allVisible {cluster t : Text} (h : t.AllVisible) :
  clustersFrom (.start .other) cluster t = cluster :: t.map ([·])
  := by
  induction t generalizing cluster with
  | nil => rw [clustersFrom, List.map_nil]
  | cons b t ih =>
      obtain ⟨hb, ht⟩ := List.forall_mem_cons.mp h
      rw [clustersFrom, unitSize?_of_isVisible hb]
      dsimp only
      rw [firstClass_of_isVisible hb, if_neg (by decide), List.take_zero, List.drop_zero, ih ht,
        List.map_cons]

theorem clusterWidth_of_isVisible {b : UInt8} (h : IsVisible b) :
  clusterWidth [b] = 1
  := by
  have hglyphs : glyphs [b] = [⟨b.toNat, [b], true⟩] := by
    rw [glyphs, Glyph.first_of_lt (Nat.lt_trans h.2 (by decide)), List.drop_nil, glyphs]
  rw [clusterWidth, hglyphs, List.map_singleton, codeWidth_of_isVisible h]
  rfl

/-- A text of visible characters takes a column for each. -/
theorem AllVisible.columns {t : Text} (h : t.AllVisible) :
  t.columns = t.length
  := by
  have hclusters : t.clusters = t.map ([·]) := by
    cases t with
    | nil => rw [clusters, List.map_nil]
    | cons b t =>
        obtain ⟨hb, ht⟩ := List.forall_mem_cons.mp h
        rw [clusters, unitSize?_of_isVisible hb]
        dsimp only
        rw [firstClass_of_isVisible hb, List.take_zero, List.drop_zero,
          clustersFrom_of_allVisible ht, List.map_cons]
  have hwidths : t.map (fun b => clusterWidth [b]) = t.map fun _ => 1 :=
    List.map_congr_left fun b hb => clusterWidth_of_isVisible (h b hb)
  rw [columns_eq_sum, hclusters, List.map_map]
  change (t.map fun b => clusterWidth [b]).sum = _
  rw [hwidths, List.map_const', List.sum_replicate_nat, Nat.mul_one]

end Text

/-! ### Lawful counts of columns -/

/-- A visible ASCII character takes a column for itself, and no text takes it in. -/
class LawfulMeasuring [Measuring] : Prop where
  width_visible : ∀ {t : Text}, t.AllVisible → t.width = t.length
  width_pos : ∀ {t : Text}, t.HasVisible → 0 < t.width

instance : LawfulMeasuring where
  width_visible := Text.AllVisible.columns
  width_pos := Text.HasVisible.columns_pos

namespace Text

variable [Measuring]

theorem AllVisible.padColumns {t : Text} (h : t.AllVisible) (columns : Nat) :
  AllVisible (padColumns columns t)
  := h.append (allVisible_blanks _)

/-- A text of the right width needs no padding. -/
theorem padColumns_width (t : Text) :
  padColumns t.width t = t
  := by
  rw [padColumns, Nat.sub_self]
  exact List.append_nil t

/-- Pieces that are put together one after another are as wide as all of them so far. -/
def Additive (pieces : List Text) : Prop :=
  ∀ front, front <+: pieces → width front.flatten = (front.map width).sum

/-- The pieces of a text and the blanks that fill it up to some columns add up. -/
def PadsAdditively (columns : Nat) (pieces : List Text) : Prop :=
  Additive (pieces ++ [blanks (columns - width pieces.flatten)])

theorem Additive.append_left {front back : List Text} (h : Additive (front ++ back)) :
  width front.flatten = (front.map width).sum
  := h front (List.prefix_append front back)

variable [LawfulMeasuring]

@[simp]
theorem width_blanks (n : Nat) :
  (blanks n).width = n
  := by
  rw [LawfulMeasuring.width_visible (allVisible_blanks n)]
  exact List.length_replicate

@[simp]
theorem width_nil :
  width [] = 0
  := LawfulMeasuring.width_visible fun _ hb => nomatch hb

theorem width_padColumns {columns : Nat} {pieces : List Text} (h : PadsAdditively columns pieces)
    (hle : (pieces.map width).sum ≤ columns) :
  (padColumns columns pieces.flatten).width = columns
  := by
  have hfront : width pieces.flatten = (pieces.map width).sum := Additive.append_left h
  have hall := h _ (List.prefix_refl _)
  rw [List.flatten_append, List.flatten_singleton, List.map_append, List.sum_append,
    List.map_singleton, List.sum_singleton, width_blanks] at hall
  rw [padColumns, hall]
  omega

/-- Widths of visible texts add up. -/
theorem additive_of_allVisible {pieces : List Text} (h : ∀ piece ∈ pieces, piece.AllVisible) :
  Additive pieces
  := by
  intro front hpre
  have hfront : ∀ piece ∈ front, piece.AllVisible := fun piece hpiece =>
    h piece (hpre.subset hpiece)
  have hwidths : front.map Text.width = front.map List.length :=
    List.map_congr_left fun piece hpiece => LawfulMeasuring.width_visible (hfront piece hpiece)
  rw [LawfulMeasuring.width_visible (allVisible_flatten hfront), List.length_flatten, hwidths]

theorem padsAdditively_of_allVisible {pieces : List Text} (columns : Nat)
    (h : ∀ piece ∈ pieces, piece.AllVisible) :
  PadsAdditively columns pieces
  := by
  apply additive_of_allVisible
  rw [List.forall_mem_append]
  exact ⟨h, by simpa using allVisible_blanks _⟩

end Text

end ThreeAddress
