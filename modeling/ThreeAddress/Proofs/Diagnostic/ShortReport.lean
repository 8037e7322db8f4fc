import Mathlib.Data.Prod.Lex
import ThreeAddress.Diagnostic.Short
import ThreeAddress.Proofs.Diagnostic.Key
import ThreeAddress.Proofs.Text.Glyphs

/-!
# One-line reports do not depend on the order of the findings

Lines are compared by everything that is shown of them, so lines that may stand on either side of
one another are equal, and there is one way to sort them, in whatever order they were found.  A line
is one line of the report, unless its path is broken.
-/

namespace ThreeAddress

/-! ### The order of lines -/

section Lex

variable {α β : Type} [LT α] [LE β]

instance isStrictOrder_lt : IsStrictOrder Text (· < ·) where

instance isTrans_lex [IsTrans α (· < ·)] [IsTrans β (· ≤ ·)] : IsTrans (α ×ₗ β) (· ≤ ·) :=
  inferInstanceAs (IsTrans (α × β) (Prod.Lex (· < ·) (· ≤ ·)))

instance total_lex [Std.Trichotomous (α := α) (· < ·)] [Std.Total (α := β) (· ≤ ·)] :
    Std.Total (α := α ×ₗ β) (· ≤ ·) :=
  inferInstanceAs (Std.Total (α := α × β) (Prod.Lex (· < ·) (· ≤ ·)))

instance antisymm_lex [IsStrictOrder α (· < ·)] [Std.Antisymm (α := β) (· ≤ ·)] :
    Std.Antisymm (α := α ×ₗ β) (· ≤ ·) :=
  inferInstanceAs (Std.Antisymm (α := α × β) (Prod.Lex (· < ·) (· ≤ ·)))

/-- Where two things differ they decide, and where they agree the rest does. -/
theorem decides_iff [Std.Irrefl (α := α) (· < ·)] [DecidableEq α] [DecidableLT α] {x y : α}
    {rest : Bool} :
  (if x ≠ y then decide (x < y) else rest) = true ↔ x < y ∨ x = y ∧ rest = true
  := by
  by_cases h : x = y
  · subst h
    simp [Std.Irrefl.irrefl (r := fun x y : α => x < y)]
  · simp [h]

end Lex

namespace ShortLine

/-- The fields of a line: path, line, column, label, code and message. -/
def key (l : ShortLine) : Text ×ₗ Nat ×ₗ Nat ×ₗ Text ×ₗ Text ×ₗ Text :=
  toLex (l.path, toLex (l.line, toLex (l.column, toLex (l.label, toLex (l.code, l.message)))))

/-- Nothing else is shown of a line. -/
theorem key_injective {a b : ShortLine} (h : a.key = b.key) :
  a = b
  := by
  obtain ⟨_, _, _, _, _, _⟩ := a
  obtain ⟨_, _, _, _, _, _⟩ := b
  cases h
  rfl

theorem le_iff {a b : ShortLine} :
  a.le b = true ↔ a.key ≤ b.key
  := by
  simp only [le, decides_iff, decide_eq_true_eq, key, Prod.Lex.toLex_le_toLex]

theorem pairwise_mergeSort (ls : List ShortLine) :
  (ls.mergeSort le).Pairwise fun a b => a.key ≤ b.key
  := by
  have htrans : ∀ a b c : ShortLine, a.le b = true → b.le c = true → a.le c = true :=
    fun a b c hab hbc => le_iff.mpr (IsTrans.trans _ _ _ (le_iff.mp hab) (le_iff.mp hbc))
  have htotal : ∀ a b : ShortLine, (a.le b || b.le a) = true := by
    intro a b
    rw [Bool.or_eq_true, le_iff, le_iff]
    exact Std.Total.total a.key b.key
  exact (List.pairwise_mergeSort htrans htotal ls).imp le_iff.mp

/-- Lines are sorted in one way. -/
theorem mergeSort_eq_of_perm {ls ls' : List ShortLine} (h : ls.Perm ls') :
  ls.mergeSort le = ls'.mergeSort le
  := by
  have hperm := (List.mergeSort_perm ls le).trans (h.trans (List.mergeSort_perm ls' le).symm)
  refine hperm.eq_of_pairwise ?_ (pairwise_mergeSort ls) (pairwise_mergeSort ls')
  exact fun a b _ _ hab hba => key_injective (Std.Antisymm.antisymm _ _ hab hba)

/-! ### Lines without line ends -/

theorem mem_of_mem_trim {t : Text} {b : UInt8} (h : b ∈ t.trim) :
  b ∈ t
  := by
  have hsub : ((t.glyphs.dropWhile Glyph.isSpace).reverse.dropWhile Glyph.isSpace).reverse.Sublist
      t.glyphs := by
    have hback := (List.dropWhile_sublist Glyph.isSpace).trans
      (List.reverse_sublist.mpr (List.dropWhile_sublist (l := t.glyphs) Glyph.isSpace))
    simpa only [List.reverse_reverse] using hback.reverse
  obtain ⟨g, hg, hb⟩ := List.mem_flatMap.mp h
  rw [← Text.flatMap_bytes_glyphs t]
  exact List.mem_flatMap.mpr ⟨g, hsub.mem hg, hb⟩

/-- A message on one line has no line end. -/
theorem newline_notMem_oneLine (message : Text) :
  10 ∉ oneLine message
  := by
  intro h
  have hmem := mem_of_mem_trim h
  obtain ⟨b, -, hb⟩ := List.mem_map.mp hmem
  split at hb
  · cases hb
  · exact absurd hb ‹_›

theorem newline_notMem_ofNat (n : Nat) :
  10 ∉ Text.ofNat n
  := Text.notMem_ofNat (by decide) n

theorem newline_notMem_id (c : Code) :
  10 ∉ c.id
  := fun h => absurd (Code.mem_id h) (by decide)

theorem newline_notMem_label (s : Severity) :
  10 ∉ s.label
  := by
  have hlabels : 10 ∉ Text.ofString "error" ∧ 10 ∉ Text.ofString "warning"
      ∧ 10 ∉ Text.ofString "info" := by decide
  cases s with
  | error => exact hlabels.1
  | warning => exact hlabels.2.1
  | info => exact hlabels.2.2
  | other rank => exact hlabels.2.2

/-- Only a path can break a line. -/
structure OneLine (l : ShortLine) : Prop where
  label : 10 ∉ l.label
  code : 10 ∉ l.code
  message : 10 ∉ l.message

theorem OneLine.text {l : ShortLine} (h : l.OneLine) (hpath : 10 ∉ l.path) :
  10 ∉ l.text
  := by
  have hblank : 10 ∉ Text.ofString " " := by decide
  have hcolon : 10 ∉ Text.ofString ":" := by decide
  simp only [ShortLine.text, List.mem_append, not_or]
  exact ⟨⟨⟨⟨⟨⟨⟨⟨⟨⟨h.label, hblank⟩, h.code⟩, hblank⟩, hpath⟩, hcolon⟩, newline_notMem_ofNat _⟩,
    hcolon⟩, newline_notMem_ofNat _⟩, hblank⟩, h.message⟩

theorem oneLine_of_at? {fs : FileSet} {label code : Text} {span : Span} {message : Text}
    {l : ShortLine} (h : at? fs label code span message = some l) (hlabel : 10 ∉ label)
    (hcode : 10 ∉ code) :
  l.OneLine
  := by
  obtain ⟨f, -, rfl⟩ := Option.map_eq_some_iff.mp h
  exact ⟨hlabel, hcode, newline_notMem_oneLine message⟩

theorem oneLine_of_mem_ofDiagnostic {fs : FileSet} {notes : Bool} {d : Diagnostic} {l : ShortLine}
    (h : l ∈ ofDiagnostic fs notes d) :
  l.OneLine
  := by
  have hcode := newline_notMem_id d.code
  rw [ofDiagnostic, List.mem_append, Option.mem_toList] at h
  obtain h | h := h
  · exact oneLine_of_at? h (newline_notMem_label d.severity) hcode
  · split at h
    · obtain ⟨n, -, h⟩ := List.mem_filterMap.mp h
      exact oneLine_of_at? h (by decide) hcode
    · cases h

end ShortLine

/-! ### Reports -/

/-- The lines that findings are worth, in the order of the findings. -/
def shortLines (fs : Option FileSet) (notes : Bool) (ds : List Diagnostic) : List ShortLine :=
  match fs with
  | none => []
  | some fs => ds.flatMap (ShortLine.ofDiagnostic fs notes)

/-- A report consists of lines in ascending order, each on a line of its own. -/
structure ReportOf (said : List ShortLine) (report : Text) (lines : List ShortLine) : Prop where
  complete : lines.Perm said
  ascending : lines.Pairwise fun a b => a.key ≤ b.key
  text : report = Text.join "\n" (lines.map ShortLine.text)
  unbroken : ∀ l ∈ lines, 10 ∉ l.path → 10 ∉ l.text

variable {fs : Option FileSet} {notes : Bool} {ds ds' : List Diagnostic}

theorem shortReport_eq :
  shortReport fs notes ds
    = Text.join "\n" (((shortLines fs notes ds).mergeSort ShortLine.le).map ShortLine.text)
  := by
  cases fs with
  | none => rw [shortLines, List.mergeSort_nil]; rfl
  | some fs => rfl

theorem shortLines_perm (h : ds.Perm ds') :
  (shortLines fs notes ds).Perm (shortLines fs notes ds')
  := by
  cases fs with
  | none => exact .refl _
  | some fs => exact h.flatMap_right _

theorem oneLine_of_mem_shortLines {l : ShortLine} (h : l ∈ shortLines fs notes ds) :
  l.OneLine
  := by
  cases fs with
  | none => cases h
  | some fs =>
      obtain ⟨d, -, h⟩ := List.mem_flatMap.mp h
      exact ShortLine.oneLine_of_mem_ofDiagnostic h

theorem reportOf_sorted :
  ReportOf (shortLines fs notes ds) (shortReport fs notes ds)
    ((shortLines fs notes ds).mergeSort ShortLine.le)
  := by
  refine ⟨List.mergeSort_perm _ _, ShortLine.pairwise_mergeSort _, shortReport_eq, ?_⟩
  intro l hl hpath
  exact (oneLine_of_mem_shortLines (List.mem_mergeSort.mp hl)).text hpath

/-- In whatever order findings come, with or without their notes, their report is the same.  Its
lines are those of the findings, by path, line, column, label, code and message. -/
theorem short_report_independent_of_order (fs : Option FileSet) {ds ds' : List Diagnostic}
    (h : ds.Perm ds') (notes : Bool) :
  shortReport fs notes ds = shortReport fs notes ds'
  ∧ ∃ lines, ReportOf (shortLines fs notes ds) (shortReport fs notes ds) lines
  := by
  refine ⟨?_, _, reportOf_sorted⟩
  rw [shortReport_eq, shortReport_eq, ShortLine.mergeSort_eq_of_perm (shortLines_perm h)]

/-- Two findings at one place and a note before them, in either order. -/
theorem report_of_exchanged_findings :
  let fs : FileSet := { files := #[{ path := "./a", content := "x\ny\n", newlines := #[1, 3] }] }
  let spill : Diagnostic :=
    { severity := .warning, code := .spilled, span := ⟨0, 2, 3⟩, message := "b\r\nc "
      notes := [⟨⟨0, 0, 1⟩, "x"⟩] }
  let unknown : Diagnostic := .error .unknownChar ⟨0, 2, 3⟩ "y"
  [spill, unknown].Perm [unknown, spill]
  ∧ shortReport (some fs) true [spill, unknown] = shortReport (some fs) true [unknown, spill]
  ∧ ∃ lines, ReportOf (shortLines (some fs) true [spill, unknown])
      (shortReport (some fs) true [spill, unknown]) lines
  := by
  intro fs spill unknown
  have hperm : [spill, unknown].Perm [unknown, spill] := .swap ..
  exact ⟨hperm, short_report_independent_of_order (some fs) hperm true⟩

end ThreeAddress
