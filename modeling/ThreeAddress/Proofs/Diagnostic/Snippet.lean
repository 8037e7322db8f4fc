import Mathlib.Data.List.DropRight
import Mathlib.Data.List.GetD
import Mathlib.Tactic.Common
import ThreeAddress.Diagnostic.Pretty
import ThreeAddress.Proofs.Source.Lines
import ThreeAddress.Text.Width

/-!
# What snippets show

The line of an offset is what stands between the newlines around it, so a line with marks is made of
the text before a span, the part of the span on that line, and what is left.  The marks stand under
the second of them.  The rows above come one by one up to that line, and those below until the
context ends or a line is empty, which the one behind the last line always is.
-/

namespace ThreeAddress

/-! ### The line of an offset -/

namespace Text

/-- The part of a text before its first newline. -/
def firstLine (t : Text) : Text := t.takeWhile (· != 10)

/-- The part of a text behind its last newline. -/
def lastLine (t : Text) : Text := t.rtakeWhile (· != 10)

variable {t front back : Text}

theorem firstLine_eq_self (ht : 10 ∉ t) :
  t.firstLine = t
  := List.takeWhile_eq_self_iff.mpr (bne_newline ht)

theorem firstLine_append (hfront : 10 ∉ front) (back : Text) :
  (front ++ back).firstLine = front ++ back.firstLine
  := List.takeWhile_append_of_pos (bne_newline hfront)

theorem firstLine_append_of_mem (hfront : 10 ∈ front) (back : Text) :
  (front ++ back).firstLine = front.firstLine
  := by
  obtain ⟨first, rest, rfl, hfirst⟩ := List.eq_append_cons_of_mem hfront
  rw [List.append_assoc, firstLine_append hfirst, firstLine_append hfirst]
  rfl

theorem lastLine_append (front : Text) (hback : 10 ∉ back) :
  (front ++ back).lastLine = front.lastLine ++ back
  := by
  have hreverse : ∀ b ∈ back.reverse, (b != 10) = true :=
    bne_newline (mt List.mem_reverse.mp hback)
  rw [lastLine, lastLine, List.rtakeWhile, List.rtakeWhile, List.reverse_append,
    List.takeWhile_append_of_pos hreverse, List.reverse_append, List.reverse_reverse]

theorem nthLine_one (t : Text) :
  t.nthLine 1 = t.firstLine
  := by
  rw [nthLine]
  by_cases ht : 10 ∈ t
  · obtain ⟨first, rest, rfl, hfirst⟩ := List.eq_append_cons_of_mem ht
    rw [List.splitOn_append_cons_self_of_not_mem hfirst, firstLine_append hfirst]
    exact (List.append_nil first).symm
  · rw [List.splitOn_eq_singleton ht]
    exact (firstLine_eq_self ht).symm

/-- The line of an offset is what stands around it. -/
theorem nthLine_append (front back : Text) :
  (front ++ back).nthLine (1 + List.count 10 front) = front.lastLine ++ back.firstLine
  := by
  by_cases hfront : 10 ∈ front
  · obtain ⟨front', last, rfl, hlast⟩ := exists_last_newline hfront
    have hcount : List.count 10 (front' ++ 10 :: last) = (front'.splitOn 10).length := by
      rw [length_splitOn, List.count_append, List.count_cons_self, List.count_eq_zero.mpr hlast]
    have hsplit : (front' ++ 10 :: last ++ back).splitOn 10
        = front'.splitOn 10 ++ (last ++ back).splitOn 10 := by
      rw [List.append_assoc]
      exact List.splitOnP_append_cons front' (last ++ back) (beq_self_eq_true 10)
    rw [hcount, Nat.add_comm, nthLine, hsplit, List.getD_append_right _ _ _ _ (Nat.le_refl _),
      Nat.sub_self, lastLine, rtakeWhile_newline hlast, ← firstLine_append hlast]
    apply nthLine_one
  · rw [List.count_eq_zero.mpr hfront, nthLine_one, firstLine_append hfront]
    exact congrArg (· ++ _) (lastLine_append [] hfront).symm

/-- Behind the last line lines are empty. -/
theorem nthLine_of_lt {n : Nat} (h : List.count 10 t + 1 < n) :
  t.nthLine n = []
  := by
  cases n with
  | zero => rfl
  | succ k =>
      rw [nthLine, List.getD_eq_default]
      rw [length_splitOn]
      omega

theorem slice?_append (front line back : Text) :
  (front ++ (line ++ back)).slice? front.length (front.length + line.length) = some line
  := by
  rw [slice?, if_pos]
  · have hlength : ((front.length + line.length : Int) - front.length).toNat = line.length := by
      omega
    rw [Int.toNat_natCast, List.drop_left, hlength, List.take_left]
  · simp only [List.length_append]
    omega

theorem copies?_natCast (n : Nat) (b : Char) :
  copies? n b = some (fill n b)
  := if_neg (by omega)

end Text

namespace Pretty

variable {o : PrettyOptions} {f : File} {width : Nat} {start stop : Position}

/-! ### Rows -/

/-- The row of a source line. -/
def sourceRow (o : PrettyOptions) (f : File) (width n : Nat) : Text :=
  gutter o width (Text.ofNat n) ++ f.content.nthLine n

/-- A caret and tildes, as many columns as there are to mark but at least one. -/
def marksFor (columns : Nat) : Text := "^" ++ Text.fill (max columns 1 - 1) '~'

theorem length_marksFor (columns : Nat) :
  (marksFor columns).length = max columns 1
  := by
  rw [marksFor, List.length_append, Text.fill, List.length_replicate]
  change 1 + _ = _
  omega

section

variable [Measuring]

/-- The row of marks under a text that has another one before it. -/
def markRow (o : PrettyOptions) (width : Nat) (before marked : Text) : Text :=
  gutter o width [] ++ Text.blanks (Text.width before) ++
    markStyle.paint o.color (marksFor (Text.width marked))

theorem marks?_eq {before marked rest : Text}
    (hstart : start.column.toNat = before.length + 1)
    (hstop : stop.line = start.line ∧ stop.column.toNat = before.length + marked.length + 1
      ∨ stop.line ≠ start.line ∧ rest = []) :
  marks? o width (before ++ (marked ++ rest)) start stop = some (markRow o width before marked)
  := by
  have hlength : ((before ++ (marked ++ rest)).length : Int)
      = before.length + marked.length + rest.length := by
    simp only [List.length_append]
    omega
  have hcolumn : min ((start.column.toNat : Int) - 1)
      (before.length + marked.length + rest.length) = before.length := by
    omega
  have hstopColumn : max (before.length : Int) (if stop.line = start.line then
        min ((stop.column.toNat : Int) - 1) (before.length + marked.length + rest.length)
      else before.length + marked.length + rest.length) = before.length + marked.length := by
    obtain ⟨hsame, hcolumn⟩ | ⟨hother, rfl⟩ := hstop
    · rw [if_pos hsame]
      omega
    · rw [if_neg hother, List.length_nil]
      omega
  have hbefore : Text.slice? (before ++ (marked ++ rest)) 0 before.length = some before := by
    simpa using Text.slice?_append [] before (marked ++ rest)
  have hmarks : max (Text.width marked : Int) 1 - 1 = (max (Text.width marked) 1 - 1 : Nat) := by
    omega
  rw [marks?, hlength, hcolumn, hstopColumn, hbefore, Text.slice?_append]
  simp only [Option.bind_eq_bind, Option.bind_some, hmarks, Text.copies?_natCast, markRow, marksFor]
  rfl

/-! ### Lines around a span -/

/-- The rows from line `n` on, `count` of them. -/
def sourceRows (o : PrettyOptions) (f : File) (width n count : Nat) : List Text :=
  (List.range' n count).map (sourceRow o f width)

omit [Measuring] in
theorem lineIn?_wrapping (hf : f.Indexed) (hsize : f.content.length + 1 < UInt32.size) {n : Nat}
    (hn : n ≤ List.count 10 f.content + 2) :
  f.lineIn? .wrapping n.toUInt32 = some (f.content.nthLine n)
  := by
  have hcount := List.count_le_length (a := (10 : UInt8)) (l := f.content)
  rw [hf.lineIn?_eq WordArithmetic.exact_wrapping hsize]
  by_cases hlast : n < UInt32.size
  · rw [toNat_toUInt32 (Nat.le_refl n) hlast]
  · -- The largest number that is asked for may be no word, but it is that of no line either.
    obtain rfl : n = UInt32.size := by omega
    rw [Text.nthLine_of_lt (n := UInt32.size) (by omega)]
    rfl

/-- The rows below the first one end with the context or before an empty line. -/
theorem snippetLines?_below (o : PrettyOptions) (width : Nat) (stop : Position) (hf : f.Indexed)
    (hsize : f.content.length + 1 < UInt32.size) (count : Nat) {n : Nat}
    (hfirst : start.line.toNat < n) (hn : n ≤ List.count 10 f.content + 2) :
  ∃ below, snippetLines? o f width start stop count n = some (sourceRows o f width n below)
    ∧ below ≤ count ∧ n + below ≤ List.count 10 f.content + 2
    ∧ (below < count → f.content.nthLine (n + below) = [])
  := by
  induction count generalizing n with
  | zero => exact ⟨0, rfl, Nat.le_refl 0, hn, fun h => absurd h (Nat.lt_irrefl 0)⟩
  | succ count ih =>
      rw [snippetLines?, lineIn?_wrapping hf hsize hn]
      by_cases hempty : f.content.nthLine n = []
      · refine ⟨0, ?_, Nat.zero_le _, hn, fun _ => hempty⟩
        rw [hempty]
        exact if_pos ⟨hfirst, rfl⟩
      · have hlast : n ≤ List.count 10 f.content + 1 := by
          by_contra hlt
          exact hempty (Text.nthLine_of_lt (Nat.lt_of_not_le hlt))
        obtain ⟨below, hrows, hle, hinside, hend⟩ := ih (n := n + 1) (by omega) (by omega)
        refine ⟨below + 1, ?_, by omega, by omega, ?_⟩
        · simp [hempty, hrows, Nat.ne_of_gt hfirst, sourceRows, sourceRow, List.range'_succ]
        · intro hlt
          rw [Nat.add_comm below, ← Nat.add_assoc]
          exact hend (by omega)

/-- The rows above the first one are all there. -/
theorem snippetLines?_above (hf : f.Indexed) (hsize : f.content.length + 1 < UInt32.size)
    (hlast : start.line.toNat ≤ List.count 10 f.content + 1) (count : Nat) {above n : Nat}
    (hfirst : n + above = start.line.toNat) :
  snippetLines? o f width start stop (above + count) n
    = (snippetLines? o f width start stop count start.line.toNat).map
        (sourceRows o f width n above ++ ·)
  := by
  induction above generalizing n with
  | zero =>
      rw [Nat.zero_add, ← hfirst]
      simp [sourceRows]
  | succ above ih =>
      have hrest := ih (n := n + 1) (by omega)
      have hlt : ¬ start.line.toNat < n := by omega
      have hne : n ≠ start.line.toNat := by omega
      rw [Nat.succ_add, snippetLines?, lineIn?_wrapping hf hsize (by omega), hrest]
      cases snippetLines? o f width start stop count start.line.toNat with
      | none => simp [hlt, hne]
      | some rows => simp [hlt, hne, sourceRows, sourceRow, List.range'_succ]

/-- The first line of the span has its marks under it. -/
theorem snippetLines?_first (hf : f.Indexed) (hsize : f.content.length + 1 < UInt32.size)
    (hlast : start.line.toNat ≤ List.count 10 f.content + 1) {row : Text}
    (hmarks : marks? o width (f.content.nthLine start.line.toNat) start stop = some row)
    (count : Nat) :
  snippetLines? o f width start stop (count + 1) start.line.toNat
    = (snippetLines? o f width start stop count (start.line.toNat + 1)).map
        (sourceRow o f width start.line.toNat :: row :: ·)
  := by
  rw [snippetLines?, lineIn?_wrapping hf hsize (by omega)]
  cases snippetLines? o f width start stop count (start.line.toNat + 1) with
  | none => simp
  | some rows => simp [hmarks, sourceRow]

/-- A snippet has the lines of its context, as far as they have a number. -/
theorem snippet?_eq {context : Nat} (hcontext : o.context = context)
    (hfirst : 1 ≤ start.line.toNat) :
  snippet? o f start stop = (snippetLines? o f (Text.ofInt (start.line.toNat + o.context)).length
    start stop (min context (start.line.toNat - 1) + (context + 1))
    (start.line.toNat - min context (start.line.toNat - 1))).map Text.lines
  := by
  have hcount : (start.line.toNat + o.context - max (start.line.toNat - o.context) 1 + 1).toNat
      = min context (start.line.toNat - 1) + (context + 1) := by
    omega
  have hfrom : (max (start.line.toNat - o.context) 1).toNat
      = start.line.toNat - min context (start.line.toNat - 1) := by
    omega
  have hzero : ¬ (start.line.toNat : Int) = 0 := by omega
  rw [snippet?, ← hcount, ← hfrom]
  exact if_neg hzero

/-! ### Snippets -/

omit [Measuring] in
/-- The line of a span's start is what stands before the span, what is marked, and the rest, which
is empty if the span goes on to another line. -/
theorem nthLine_of_span (f : File) {a b : Nat} (hab : a ≤ b) :
  ∃ rest, f.content.nthLine (1 + List.count 10 (f.content.take a))
      = Text.lastLine (f.content.take a) ++ ((f.slice a b).firstLine ++ rest)
    ∧ (10 ∈ f.slice a b → rest = [])
  := by
  have hcontent : f.content = f.content.take a ++ (f.slice a b ++ f.content.drop b) := by
    have hdrop : f.content.drop b = (f.content.drop a).drop (b - a) := by
      rw [List.drop_drop, Nat.add_sub_cancel' hab]
    rw [File.slice, hdrop, List.take_append_drop, List.take_append_drop]
  have hline := Text.nthLine_append (f.content.take a) (f.slice a b ++ f.content.drop b)
  rw [← hcontent] at hline
  rw [hline]
  by_cases hspan : 10 ∈ f.slice a b
  · refine ⟨[], ?_, fun _ => rfl⟩
    rw [Text.firstLine_append_of_mem hspan, List.append_nil]
  · refine ⟨Text.firstLine (f.content.drop b), ?_, fun h => absurd h hspan⟩
    rw [Text.firstLine_append hspan, Text.firstLine_eq_self hspan]

/-- The marks of a span stand under the part of it that is on its first line. -/
theorem marks?_of_span {a b : UInt32} (hab : a ≤ b) (hstart : f.PositionAt a start)
    (hstop : f.PositionAt b stop) :
  marks? o width (f.content.nthLine (1 + List.count 10 (f.content.take a.toNat))) start stop
    = some (markRow o width (Text.lastLine (f.content.take a.toNat))
        (f.slice a.toNat b.toNat).firstLine)
  := by
  have hle : a.toNat ≤ b.toNat := UInt32.le_iff_toNat_le.mp hab
  have htake : f.content.take b.toNat = f.content.take a.toNat ++ f.slice a.toNat b.toNat := by
    rw [File.slice, ← List.take_add, Nat.add_sub_cancel' hle]
  obtain ⟨rest, hline, hrest⟩ := nthLine_of_span f hle
  rw [hline]
  apply marks?_eq
  · rw [hstart.column_eq, Nat.add_comm]
    rfl
  · have hlineStart := hstart.line_eq
    have hlineStop := hstop.line_eq
    rw [htake, List.count_append] at hlineStop
    by_cases hspan : 10 ∈ f.slice a.toNat b.toNat
    · right
      have hpos := List.count_pos_iff.mpr hspan
      refine ⟨?_, hrest hspan⟩
      intro hsame
      rw [hsame] at hlineStop
      omega
    · left
      rw [List.count_eq_zero.mpr hspan, Nat.add_zero, ← hlineStart] at hlineStop
      use UInt32.toNat_inj.mp hlineStop
      have hcolumn := hstop.column_eq
      rw [htake] at hcolumn
      change _ = 1 + (Text.lastLine _).length at hcolumn
      rw [Text.lastLine_append _ hspan, List.length_append] at hcolumn
      rw [Text.firstLine_eq_self hspan, hcolumn]
      omega

/-- How many lines are shown above and below line `first`: above it as many as the context has, as
far as there are any, and below it no more, and fewer only before an empty line. -/
structure IsContext (o : PrettyOptions) (f : File) (first above below : Nat) : Prop where
  above_eq : (above : Int) = min o.context (first - 1)
  below_le : (below : Int) ≤ o.context
  inside : first + below ≤ List.count 10 f.content + 1
  ends : (below : Int) < o.context → f.content.nthLine (first + below + 1) = []

/-- The rows of a snippet about the bytes from `a` to `b`: the line of the first one with the marks
under it, and the lines around. -/
def snippetRows (o : PrettyOptions) (f : File) (a b above below : Nat) : List Text :=
  let before : Text := f.content.take a
  let first := 1 + List.count 10 before
  let width := (Text.ofInt (first + o.context)).length
  sourceRows o f width (first - above) above ++
    sourceRow o f width first :: markRow o width before.lastLine (f.slice a b).firstLine ::
      sourceRows o f width (first + 1) below

/-- A snippet is made whatever the span, and its marks point at the span. -/
theorem snippet_points_at_span {s : FileSet} (hs : s.Built) {id : FileId} (hf : s.get? id = some f)
    (hsize : f.content.length < UInt32.size - 1) {a b : UInt32} (hab : a ≤ b)
    (hb : b.toNat ≤ f.content.length) (hcontext : 0 ≤ o.context) :
  ∃ start stop above below, s.resolve? ⟨id, a, b⟩ = some (start, stop)
    ∧ IsContext o f (1 + List.count 10 (f.content.take a.toNat)) above below
    ∧ snippet? o f start stop = some (Text.lines (snippetRows o f a.toNat b.toNat above below))
  := by
  have hindexed : f.Indexed := hs.indexed f (Array.mem_of_getElem? hf)
  have hsize' : f.content.length + 1 < UInt32.size := Nat.add_lt_of_lt_sub hsize
  have ha : a.toNat ≤ f.content.length := Nat.le_trans (UInt32.le_iff_toNat_le.mp hab) hb
  obtain ⟨start, stop, hresolve, hstart, hstop⟩ :=
    (FileSet.positions_and_lines_agree hs hf hsize).resolved a b ha hb
  have hfirst := hstart.line_eq
  have hlast : start.line.toNat ≤ List.count 10 f.content + 1 := by
    have := (List.take_sublist a.toNat f.content).count_le 10
    omega
  have hmarks (width : Nat) : marks? o width _ start stop = _ := marks?_of_span hab hstart hstop
  rw [← hfirst] at hmarks
  obtain ⟨context, hcontext⟩ := Int.eq_ofNat_of_zero_le hcontext
  obtain ⟨below, hbelow, hle, hinside, hends⟩ := snippetLines?_below o
    (Text.ofInt (start.line.toNat + o.context)).length stop hindexed hsize' context
    (Nat.lt_succ_self start.line.toNat) (by omega)
  refine ⟨start, stop, min context (start.line.toNat - 1), below, hresolve, ?_, ?_⟩
  · rw [← hfirst]
    constructor
    · omega
    · omega
    · omega
    · intro h
      rw [Nat.add_right_comm]
      exact hends (by omega)
  · have habove : start.line.toNat - min context (start.line.toNat - 1)
        + min context (start.line.toNat - 1) = start.line.toNat := by
      omega
    rw [snippet?_eq hcontext (by omega), snippetLines?_above hindexed hsize' hlast _ habove,
      snippetLines?_first hindexed hsize' hlast (hmarks _), hbelow, snippetRows, ← hfirst]
    rfl

end

/-- A set with a file of three lines, the last one without a newline. -/
def threeLines : FileSet := (FileSet.addVirtual {} "three" "a\nbc\nd").1

/-- The marks for what stands behind the second character of `threeLines` end with its line. -/
theorem threeLines_pointed_at :
  threeLines.Built ∧ (3 : UInt32) ≤ 6
    ∧ ∃ f, threeLines.get? 0 = some f ∧ f.content.length < UInt32.size - 1
      ∧ (6 : UInt32).toNat ≤ f.content.length ∧ 0 ≤ ({ context := 1 } : PrettyOptions).context
      ∧ ∃ start stop above below, threeLines.resolve? ⟨0, 3, 6⟩ = some (start, stop)
        ∧ IsContext { context := 1 } f (1 + List.count 10 (f.content.take 3)) above below
        ∧ snippet? { context := 1 } f start stop
          = some (Text.lines (snippetRows { context := 1 } f 3 6 above below))
  := by
  have hbuilt : threeLines.Built := .add (.empty [] "/") _ _ _
  have hspan : (3 : UInt32) ≤ 6 := by decide
  have hsize : (Text.ofString "a\nbc\nd").length < UInt32.size - 1 := by decide
  have hstop : (6 : UInt32).toNat ≤ (Text.ofString "a\nbc\nd").length := by decide
  exact ⟨hbuilt, hspan, _, rfl, hsize, hstop, by decide,
    snippet_points_at_span hbuilt rfl hsize hspan hstop (by decide)⟩

example :
    (((FileSet.addVirtual {} "three" "a\nbc\nd").1.get? 0).bind fun f =>
        snippet? { context := 1 } f ⟨2, 2⟩ ⟨3, 2⟩)
      = some (Text.ofString " 1 | a\n 2 | bc\n   |  ^\n 3 | d\n") := by decide +kernel

end Pretty

end ThreeAddress
