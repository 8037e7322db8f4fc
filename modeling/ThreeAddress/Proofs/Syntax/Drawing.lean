import ThreeAddress.Proofs.Text.Columns
import ThreeAddress.Syntax.Drawing

/-!
# Drawn trees are aligned

A drawing is a block: its lines are equally wide.  The row below a label has a sign at the column of
each child's root, and the rows of the child below have its root at that column.  Widths of texts
that are put together need not add up, as a mark may join the character before it; what is said of
whole lines assumes that they do where lines are put together.
-/

namespace ThreeAddress

namespace Drawing

variable {d : Drawing} {ds : List Drawing} {label : Text} {p : Placement}

/-! ### Places -/

/-- The root of a drawing is in one of its columns. -/
def Rooted (d : Drawing) : Prop := d.root < d.width

theorem totalWidth_cons_cons (d d' : Drawing) (ds : List Drawing) :
  totalWidth (d :: d' :: ds) = d.width + spacing + totalWidth (d' :: ds)
  := totalWidth.eq_3 _ _ (List.cons_ne_nil _ _)

theorem lt_of_mem_roots (h : ∀ d ∈ ds, d.Rooted) {start column : Nat}
    (hcolumn : column ∈ roots start ds) :
  column < start + totalWidth ds
  := by
  induction ds generalizing start with
  | nil => cases hcolumn
  | cons d ds ih =>
      obtain ⟨hd, hds⟩ := List.forall_mem_cons.mp h
      rw [Rooted] at hd
      rw [roots, List.mem_cons] at hcolumn
      cases ds with
      | nil =>
          obtain rfl := hcolumn.resolve_right List.not_mem_nil
          rw [totalWidth]
          omega
      | cons d' ds =>
          rw [totalWidth_cons_cons]
          obtain rfl | hcolumn := hcolumn
          · omega
          · have hlt := ih hds hcolumn
            omega

theorem length_le_height (h : d ∈ ds) :
  d.lines.length ≤ height ds
  := by
  have hmem : d.lines.length ∈ ds.map (·.lines.length) := List.mem_map_of_mem h
  rw [height, ← List.foldr_eq_foldl]
  exact List.le_max_of_le' 0 hmem le_rfl

/-! ### Connectors -/

theorem mark?_of_lt {row : Array UInt8} {column : Nat} (h : column < row.size) (sign : Char) :
  ∃ row', mark? row column sign = some row' ∧ row'.size = row.size
    ∧ ∀ j : Nat, row'[j]? = if j = column then some (Text.byte sign) else row[j]?
  := by
  refine ⟨row.set column (Text.byte sign), by rw [mark?, dif_pos h], Array.size_set h, ?_⟩
  intro j
  simp only [Array.getElem?_set, eq_comm]

theorem foldlM_mark (root : Nat) {columns : List Nat} {row : Array UInt8}
    (h : ∀ column ∈ columns, column < row.size) :
  ∃ row', columns.foldlM (fun row column => mark? row column (connector root column)) row
      = some row'
    ∧ row'.size = row.size
    ∧ ∀ j : Nat, row'[j]?
      = if j ∈ columns then some (Text.byte (connector root j)) else row[j]?
  := by
  induction columns generalizing row with
  | nil => exact ⟨row, rfl, rfl, by simp⟩
  | cons column columns ih =>
      obtain ⟨hcolumn, hcolumns⟩ := List.forall_mem_cons.mp h
      obtain ⟨row₁, hmark, hsize₁, hget₁⟩ := mark?_of_lt hcolumn (connector root column)
      rw [← hsize₁] at hcolumns
      obtain ⟨row₂, hfold, hsize₂, hget₂⟩ := ih hcolumns
      refine ⟨row₂, ?_, hsize₂.trans hsize₁, ?_⟩
      · rw [List.foldlM_cons, hmark]
        exact hfold
      · intro j
        rw [hget₂, hget₁]
        by_cases hj : j = column
        · subst hj
          simp
        · simp [hj]

/-- What stands in a column of the row of connectors. -/
def sign (p : Placement) (column : Nat) : Char :=
  if column = p.root then '|'
  else if column ∈ p.positions then connector p.root column
  else ' '

/-- The row of connectors, column by column. -/
def signs (p : Placement) : Text := (List.range p.width).map fun column => Text.byte (sign p column)

/-- If all roots are in columns of the drawing, so are all connectors. -/
theorem connectors?_eq (hroot : p.root < p.width) (h : ∀ column ∈ p.positions, column < p.width) :
  connectors? p = some (signs p).toArray
  := by
  have hsize : (Text.blanks p.width).toArray.size = p.width := List.length_replicate
  -- The root is marked first; a child right below it writes the same sign again.
  obtain ⟨row₁, hmark, hsize₁, hget₁⟩ := mark?_of_lt (hsize.symm ▸ hroot) '|'
  rw [hsize] at hsize₁
  obtain ⟨row₂, hfold, hsize₂, hget₂⟩ := foldlM_mark p.root (hsize₁ ▸ h)
  have hrow : row₂ = (signs p).toArray := by
    apply Array.ext_getElem?
    intro j
    rw [hget₂, hget₁, List.getElem?_toArray, List.getElem?_toArray, signs, List.getElem?_map]
    obtain hj | hj := Nat.lt_or_ge j p.width
    · rw [Text.getElem?_blanks hj, List.getElem?_range hj, Option.map_some, sign]
      by_cases hr : j = p.root
      · simp [hr, connector]
      · by_cases hp : j ∈ p.positions
        · simp [hr, hp]
        · simp [hr, hp]
    · have hp : j ∉ p.positions := fun hp => absurd (h j hp) (Nat.not_lt.mpr hj)
      have hr : j ≠ p.root := by omega
      rw [if_neg hp, if_neg hr, List.getElem?_eq_none (hsize.trans_le hj),
        List.getElem?_eq_none (List.length_range.trans_le hj), Option.map_none]
  rw [connectors?, hmark, ← hrow]
  exact hfold

theorem length_signs (p : Placement) :
  (signs p).length = p.width
  := by rw [signs, List.length_map, List.length_range]

theorem getElem?_signs {column : Nat} (h : column < p.width) :
  (signs p)[column]? = some (Text.byte (sign p column))
  := by rw [signs, List.getElem?_map, List.getElem?_range h, Option.map_some]

theorem allVisible_signs (p : Placement) :
  (signs p).AllVisible
  := by
  intro b hb
  obtain ⟨column, hcolumn, rfl⟩ := List.mem_map.mp hb
  rw [sign, connector]
  split_ifs
  all_goals exact ⟨by decide, by decide⟩

theorem allVisible_of_mem_top (h : label.AllVisible) (p : Placement) :
  ∀ piece ∈ [Text.blanks p.shift, label], piece.AllVisible
  := by simpa using ⟨Text.allVisible_blanks p.shift, h⟩

/-! ### Labels -/

section

variable [Measuring]

theorem root_lt_place (label : Text) (ds : List Drawing) :
  (place label ds).root < (place label ds).width
  := by
  simp only [place]
  omega

theorem le_place (label : Text) (ds : List Drawing) :
  (place label ds).shift + label.width ≤ (place label ds).width
    ∧ (place label ds).indent + totalWidth ds ≤ (place label ds).width
  := by
  simp only [place]
  omega

theorem positions_place (label : Text) (ds : List Drawing) :
  (place label ds).positions = (roots 0 ds).map (· + (place label ds).indent)
  := rfl

/-- The root of each child is in a column of the drawing. -/
theorem lt_of_mem_positions (h : ∀ d ∈ ds, d.Rooted) {column : Nat}
    (hcolumn : column ∈ (place label ds).positions) :
  column < (place label ds).width
  := by
  rw [positions_place] at hcolumn
  obtain ⟨c, hc, rfl⟩ := List.mem_map.mp hcolumn
  have hlt := lt_of_mem_roots h hc
  have hle := (le_place label ds).2
  omega

/-! ### Rows of the children -/

theorem width_signs [LawfulMeasuring] (p : Placement) :
  (signs p).width = p.width
  := by
  rw [LawfulMeasuring.width_visible (allVisible_signs p), length_signs]

/-- All lines of a drawing are as wide as the drawing. -/
def Rectangular (d : Drawing) : Prop := ∀ line ∈ d.lines, line.width = d.width

theorem rowAt_of_getElem? (h : d.Rectangular) {i : Nat} {line : Text}
    (hline : d.lines[i]? = some line) :
  rowAt i d = line
  := by
  rw [rowAt, hline, Option.getD_some, ← h line (List.mem_of_getElem? hline)]
  exact Text.padColumns_width line

/-- A row takes all columns of its drawing, below the last line as well. -/
theorem width_rowAt [LawfulMeasuring] (h : d.Rectangular) (i : Nat) :
  (rowAt i d).width = d.width
  := by
  cases hline : d.lines[i]? with
  | none =>
      rw [rowAt, hline, Option.getD_none, Text.padColumns, Text.width_nil, Nat.sub_zero,
        List.nil_append, Text.width_blanks]
  | some line =>
      rw [rowAt_of_getElem? h hline]
      exact h line (List.mem_of_getElem? hline)

theorem rowPieces_singleton (i : Nat) (d : Drawing) :
  rowPieces i [d] = [rowAt i d]
  := rfl

theorem rowPieces_cons_cons (i : Nat) (d d' : Drawing) (ds : List Drawing) :
  rowPieces i (d :: d' :: ds) = rowAt i d :: Text.blanks spacing :: rowPieces i (d' :: ds)
  := rfl

theorem sum_width_rowPieces [LawfulMeasuring] (h : ∀ d ∈ ds, d.Rectangular) (i : Nat) :
  ((rowPieces i ds).map Text.width).sum = totalWidth ds
  := by
  induction ds with
  | nil => rfl
  | cons d ds ih =>
      obtain ⟨hd, hds⟩ := List.forall_mem_cons.mp h
      cases ds with
      | nil =>
          rw [rowPieces_singleton, List.map_singleton, List.sum_singleton, width_rowAt hd,
            totalWidth]
      | cons d' ds =>
          rw [rowPieces_cons_cons, List.map_cons, List.map_cons, List.sum_cons, List.sum_cons,
            ih hds, width_rowAt hd, Text.width_blanks, totalWidth_cons_cons]
          omega

/-- The row of each child follows pieces that reach up to the child's first column. -/
theorem forall₂_roots [LawfulMeasuring] (h : ∀ d ∈ ds, d.Rectangular) (start : Nat) :
  List.Forall₂ (fun d column => ∀ i, ∃ front back, rowPieces i ds = front ++ rowAt i d :: back
    ∧ start + (front.map Text.width).sum + d.root = column) ds (roots start ds)
  := by
  induction ds generalizing start with
  | nil => exact .nil
  | cons d ds ih =>
      obtain ⟨hd, hds⟩ := List.forall_mem_cons.mp h
      cases ds with
      | nil => exact .cons (fun i => ⟨[], [], rfl, rfl⟩) .nil
      | cons d' ds =>
          refine .cons (fun i => ⟨[], _, rfl, rfl⟩) ?_
          refine (ih hds (start + d.width + spacing)).imp ?_
          intro child column hchild i
          obtain ⟨front, back, hpieces, hcolumn⟩ := hchild i
          refine ⟨rowAt i d :: Text.blanks spacing :: front, back, ?_, ?_⟩
          · rw [rowPieces_cons_cons, hpieces]
            rfl
          · rw [List.map_cons, List.map_cons, List.sum_cons, List.sum_cons, width_rowAt hd,
              Text.width_blanks]
            omega

/-! ### A label above its children -/

/-- Where a label is put above drawings, the widths of what is put together add up.  A row of a
child need not be mentioned: it is as wide as the child, or there is no line and it is blank. -/
structure Additive (label : Text) (ds : List Drawing) : Prop where
  top : Text.PadsAdditively (place label ds).width [Text.blanks (place label ds).shift, label]
  row : ∀ i < height ds,
    Text.PadsAdditively (place label ds).width
      (Text.blanks (place label ds).indent :: rowPieces i ds)

/-- A child hangs at a column: the row of connectors has a sign there that leads from the root, and
all rows of the child have the child's root there. -/
structure HangsAt (root : Nat) (row : Text) (rows : List Text) (child : Drawing) (column : Nat) :
    Prop where
  left : column < root → row[column]? = some (Text.byte '/')
  right : root < column → row[column]? = some (Text.byte '\\')
  below : column = root → row[column]? = some (Text.byte '|')
  rows : ∀ (i : Nat) (line : Text), child.lines[i]? = some line →
    ∃ front back, rows[i]? = some (front ++ line ++ back) ∧ front.width + child.root = column

/-- A drawing stands above the drawings of the children: the second line is the row of connectors,
with a sign for the root and one for each child, and otherwise blank. -/
def Above (d : Drawing) (children : List Drawing) : Prop :=
  ∃ top row rows columns, d.lines = top :: row :: rows
    ∧ row.length = d.width
    ∧ row[d.root]? = some (Text.byte '|')
    ∧ List.Forall₂ (HangsAt d.root row rows) children columns
    ∧ ∀ column < d.width, column ≠ d.root → column ∉ columns →
      row[column]? = some (Text.byte ' ')

theorem labelRow_eq (label : Text) (p : Placement) :
  labelRow label p = Text.padColumns p.width [Text.blanks p.shift, label].flatten
  := by
  rw [labelRow, List.flatten_cons, List.flatten_singleton]

theorem childRow_eq (ds : List Drawing) (p : Placement) (i : Nat) :
  childRow ds p i
    = Text.padColumns p.width (Text.blanks p.indent :: rowPieces i ds).flatten
  := rfl

theorem width_labelRow [LawfulMeasuring] (h : Additive label ds) :
  (labelRow label (place label ds)).width = (place label ds).width
  := by
  rw [labelRow_eq]
  apply Text.width_padColumns h.top
  simpa using (le_place label ds).1

theorem width_childRow [LawfulMeasuring] (h : Additive label ds)
    (hds : ∀ d ∈ ds, d.Rectangular) {i : Nat} (hi : i < height ds) :
  (childRow ds (place label ds) i).width = (place label ds).width
  := by
  rw [childRow_eq]
  apply Text.width_padColumns (h.row i hi)
  rw [List.map_cons, List.sum_cons, Text.width_blanks, sum_width_rowPieces hds]
  exact (le_place label ds).2

theorem exists_childRow {i : Nat} {front back : List Text} {piece : Text}
    (h : rowPieces i ds = front ++ piece :: back) (p : Placement) :
  ∃ rest, childRow ds p i = (Text.blanks p.indent :: front).flatten ++ piece ++ rest
  := by
  apply Exists.intro
  rw [childRow_eq, h, Text.padColumns]
  simp only [List.flatten_append, List.flatten_cons, List.append_assoc]
  rfl

/-- In the rows below a label, each child's root is at the column of its connector. -/
theorem forall₂_positions [LawfulMeasuring] (h : Additive label ds)
    (hds : ∀ d ∈ ds, d.Rectangular) :
  List.Forall₂ (fun child column => ∀ (i : Nat) (line : Text), child.lines[i]? = some line →
    i < height ds ∧ ∃ front back, childRow ds (place label ds) i = front ++ line ++ back
      ∧ front.width + child.root = column) ds (place label ds).positions
  := by
  rw [positions_place, List.forall₂_map_right_iff]
  -- The height bounds the rows of a child because the child is one of the drawings.
  have hmem : ∀ d ∈ ds, d ∈ ds := fun _ hd => hd
  refine ((List.forall₂_and_left _ _).mpr ⟨hmem, forall₂_roots hds 0⟩).imp ?_
  rintro child column ⟨hchild, hcolumn⟩ i line hline
  have hi : i < height ds :=
    Nat.lt_of_lt_of_le (List.getElem?_eq_some_iff.mp hline).1 (length_le_height hchild)
  obtain ⟨front, back, hpieces, hsum⟩ := hcolumn i
  rw [rowAt_of_getElem? (hds child hchild) hline] at hpieces
  have hadd := h.row i hi
  rw [Text.PadsAdditively, hpieces, ← List.cons_append, List.append_assoc] at hadd
  have hfront := hadd.append_left
  rw [List.map_cons, List.sum_cons, Text.width_blanks] at hfront
  obtain ⟨rest, hrow⟩ := exists_childRow hpieces (place label ds)
  exact ⟨hi, _, rest, hrow, by rw [hfront]; omega⟩

theorem above?_eq (label : Text) (hroots : ∀ d ∈ ds, d.Rooted) :
  above? label ds = some
    { lines := labelRow label (place label ds) :: signs (place label ds)
        :: (List.range (height ds)).map (childRow ds (place label ds))
      width := (place label ds).width
      root := (place label ds).root }
  := by
  rw [above?, connectors?_eq (root_lt_place label ds) fun _ => lt_of_mem_positions hroots]
  rfl

theorem hangsAt_of_mem {column : Nat} {child : Drawing} {rows : List Text}
    (hcolumn : column ∈ p.positions) (hlt : column < p.width)
    (hrows : ∀ (i : Nat) (line : Text), child.lines[i]? = some line →
      ∃ front back, rows[i]? = some (front ++ line ++ back) ∧ front.width + child.root = column) :
  HangsAt p.root (signs p) rows child column
  where
    left hleft := by
      rw [getElem?_signs hlt, sign, if_neg hleft.ne, if_pos hcolumn, connector, if_pos hleft]
    right hright := by
      rw [getElem?_signs hlt, sign, if_neg hright.ne', if_pos hcolumn, connector,
        if_neg hright.not_gt, if_pos hright]
    below hroot := by rw [getElem?_signs hlt, sign, if_pos hroot]
    rows := hrows

/-- Each child hangs at the column where its root is placed. -/
theorem forall₂_hangsAt [LawfulMeasuring] (hroots : ∀ d ∈ ds, d.Rooted) (h : Additive label ds)
    (hds : ∀ d ∈ ds, d.Rectangular) :
  List.Forall₂ (HangsAt (place label ds).root (signs (place label ds))
    ((List.range (height ds)).map (childRow ds (place label ds)))) ds (place label ds).positions
  := by
  have hmem : ∀ column ∈ (place label ds).positions, column ∈ (place label ds).positions :=
    fun _ hcolumn => hcolumn
  refine ((List.forall₂_and_left _ _).mpr ⟨hmem, (forall₂_positions h hds).flip⟩).flip.imp ?_
  rintro child column ⟨hcolumn, hrows⟩
  apply hangsAt_of_mem hcolumn (lt_of_mem_positions hroots hcolumn)
  intro i line hline
  obtain ⟨hi, front, back, hrow, hroot⟩ := hrows i line hline
  refine ⟨front, back, ?_, hroot⟩
  rw [List.getElem?_map, List.getElem?_range hi, Option.map_some, hrow]

/-- Drawings whose roots are in their columns can be put below a label. -/
theorem exists_above [LawfulMeasuring] (label : Text) (hroots : ∀ d ∈ ds, d.Rooted) :
  ∃ d, above? label ds = some d ∧ d.Rooted
    ∧ (Additive label ds → (∀ d ∈ ds, d.Rectangular) → d.Rectangular ∧ d.Above ds)
  := by
  refine ⟨_, above?_eq label hroots, root_lt_place label ds, ?_⟩
  intro hadd hds
  constructor
  · intro line hline
    obtain rfl | rfl | hline := by simpa only [List.mem_cons] using hline
    · exact width_labelRow hadd
    · exact width_signs (place label ds)
    · obtain ⟨i, hi, rfl⟩ := List.mem_map.mp hline
      exact width_childRow hadd hds (List.mem_range.mp hi)
  · refine ⟨_, _, _, (place label ds).positions, rfl, length_signs _, ?_,
      forall₂_hangsAt hroots hadd hds, ?_⟩
    · rw [getElem?_signs (root_lt_place label ds), sign, if_pos rfl]
    · intro column hcolumn hroot hpositions
      rw [getElem?_signs hcolumn, sign, if_neg hroot, if_neg hpositions]

/-! ### Visible lines -/

/-- All lines consist of visible ASCII characters and blanks. -/
def Plain (d : Drawing) : Prop := ∀ line ∈ d.lines, line.AllVisible

theorem Plain.rowAt (h : d.Plain) (i : Nat) :
  (rowAt i d).AllVisible
  := by
  apply Text.AllVisible.padColumns
  cases hline : d.lines[i]? with
  | none => exact fun _ hb => nomatch hb
  | some line => exact h line (List.mem_of_getElem? hline)

theorem allVisible_of_mem_rowPieces (h : ∀ d ∈ ds, d.Plain) {i : Nat} :
  ∀ piece ∈ rowPieces i ds, piece.AllVisible
  := by
  induction ds with
  | nil => exact fun _ hpiece => nomatch hpiece
  | cons d ds ih =>
      obtain ⟨hd, hds⟩ := List.forall_mem_cons.mp h
      cases ds with
      | nil => simpa [rowPieces_singleton] using hd.rowAt i
      | cons d' ds =>
          rw [rowPieces_cons_cons, List.forall_mem_cons, List.forall_mem_cons]
          exact ⟨hd.rowAt i, Text.allVisible_blanks spacing, ih hds⟩

theorem allVisible_of_mem_row (h : ∀ d ∈ ds, d.Plain) (p : Placement) (i : Nat) :
  ∀ piece ∈ Text.blanks p.indent :: rowPieces i ds, piece.AllVisible
  := List.forall_mem_cons.mpr ⟨Text.allVisible_blanks p.indent, allVisible_of_mem_rowPieces h⟩

theorem additive_of_plain [LawfulMeasuring] (hlabel : label.AllVisible) (hds : ∀ d ∈ ds, d.Plain) :
  Additive label ds
  where
    top := Text.padsAdditively_of_allVisible _ (allVisible_of_mem_top hlabel _)
    row i _ := Text.padsAdditively_of_allVisible _ (allVisible_of_mem_row hds _ i)

theorem plain_above (hroots : ∀ d ∈ ds, d.Rooted) (hlabel : label.AllVisible)
    (hds : ∀ d ∈ ds, d.Plain) (hd : above? label ds = some d) :
  d.Plain
  := by
  rw [above?_eq label hroots, Option.some.injEq] at hd
  subst hd
  intro line hline
  obtain rfl | rfl | hline := by simpa only [List.mem_cons] using hline
  · rw [labelRow_eq]
    exact (Text.allVisible_flatten (allVisible_of_mem_top hlabel _)).padColumns _
  · exact allVisible_signs (place label ds)
  · obtain ⟨i, -, rfl⟩ := List.mem_map.mp hline
    rw [childRow_eq]
    exact (Text.allVisible_flatten (allVisible_of_mem_row hds _ i)).padColumns _

end

end Drawing

namespace Outline

section

variable [Measuring]

/-! ### Drawings of outlines -/

/-- All labels take a column at least. -/
inductive Labelled : Outline → Prop
  | node {label : Text} {cs : List Outline} (hlabel : 0 < label.width)
      (hcs : ∀ o ∈ cs, Labelled o) : Labelled (.node label cs)

/-- Where the lines of the drawing are put together, widths add up. -/
inductive Additive : Outline → Prop
  | node {label : Text} {cs : List Outline} (hcs : ∀ o ∈ cs, Additive o)
      (hlabel : cs ≠ [] → ∀ ds, drawAll? cs = some ds → Drawing.Additive label ds) :
      Additive (.node label cs)

theorem drawAll?_eq_some {cs : List Outline} {ds : List Drawing} :
  drawAll? cs = some ds ↔ List.Forall₂ (fun o d => o.draw? = some d) cs ds
  := by
  induction cs generalizing ds with
  | nil => rw [drawAll?, List.forall₂_nil_left_iff, Option.some.injEq, eq_comm]
  | cons c cs ih =>
      rw [drawAll?, List.forall₂_cons_left_iff]
      simp only [Option.bind_eq_bind, Option.bind_eq_some_iff, Option.pure_def, Option.some.injEq,
        ih]
      constructor
      · rintro ⟨d, hd, ds, hds, rfl⟩
        exact ⟨d, ds, hd, hds, rfl⟩
      · rintro ⟨d, ds, hd, hds, rfl⟩
        exact ⟨d, hd, ds, hds, rfl⟩

theorem draw?_node {label : Text} {cs : List Outline} (hcs : cs ≠ []) :
  draw? (.node label cs) = (drawAll? cs).bind (Drawing.above? label)
  := by
  cases cs with
  | nil => exact absurd rfl hcs
  | cons c cs =>
      rw [draw?, drawAll?]
      cases c.draw? with
      | none => rfl
      | some d =>
          cases drawAll? cs with
          | none => rfl
          | some ds => rfl

theorem exists_drawAll {P : Drawing → Prop} {cs : List Outline}
    (h : ∀ o ∈ cs, ∃ d, o.draw? = some d ∧ P d) :
  ∃ ds, drawAll? cs = some ds ∧ ∀ d ∈ ds, P d
  := by
  induction cs with
  | nil => exact ⟨[], rfl, fun _ hd => nomatch hd⟩
  | cons c cs ih =>
      obtain ⟨⟨d, hd, hPd⟩, hcs⟩ := List.forall_mem_cons.mp h
      obtain ⟨ds, hds, hPds⟩ := ih hcs
      refine ⟨d :: ds, ?_, List.forall_mem_cons.mpr ⟨hPd, hPds⟩⟩
      rw [drawAll?, hd, hds]
      rfl

theorem exists_of_mem_drawAll {cs : List Outline} {ds : List Drawing} {d : Drawing}
    (h : drawAll? cs = some ds) (hd : d ∈ ds) :
  ∃ o ∈ cs, o.draw? = some d
  := by
  obtain ⟨i, hi, rfl⟩ := List.getElem_of_mem hd
  have hds := drawAll?_eq_some.mp h
  have hi' : i < cs.length := hds.length_eq ▸ hi
  exact ⟨cs[i], List.getElem_mem hi', hds.get hi' hi⟩

/-- A labelled outline can be drawn: no connector is outside of its row. -/
theorem Labelled.exists_draw [LawfulMeasuring] {o : Outline} (h : o.Labelled) :
  ∃ d, o.draw? = some d ∧ d.Rooted
  := by
  induction h with
  | @node label cs hlabel _ ih =>
      by_cases hcs : cs = []
      · subst hcs
        exact ⟨.leaf label, by rw [draw?], Nat.div_lt_self hlabel (by decide)⟩
      · obtain ⟨ds, hds, hroots⟩ := exists_drawAll ih
        obtain ⟨d, hd, hroot, -⟩ := Drawing.exists_above label hroots
        exact ⟨d, by rw [draw?_node hcs, hds, Option.bind_some, hd], hroot⟩

/-- The children of a labelled outline are drawn side by side, and the label above them. -/
theorem Labelled.exists_above [LawfulMeasuring] {label : Text} {cs : List Outline}
    (h : (Outline.node label cs).Labelled) (hcs : cs ≠ []) :
  ∃ d ds, draw? (.node label cs) = some d ∧ drawAll? cs = some ds
    ∧ (Drawing.Additive label ds → (∀ d ∈ ds, d.Rectangular) → d.Rectangular ∧ d.Above ds)
  := by
  obtain ⟨-, hlabelled⟩ := h
  obtain ⟨ds, hds, hroots⟩ := exists_drawAll fun o ho => (hlabelled o ho).exists_draw
  obtain ⟨d, hd, -, habove⟩ := Drawing.exists_above label hroots
  exact ⟨d, ds, by rw [draw?_node hcs, hds, Option.bind_some, hd], hds, habove⟩

theorem Labelled.rectangular [LawfulMeasuring] {o : Outline} {d : Drawing} (h : o.Labelled)
    (hadd : o.Additive) (hd : o.draw? = some d) :
  d.Rectangular
  := by
  induction h generalizing d with
  | @node label cs hlabel hlabelled ih =>
      obtain ⟨haddcs, haddlabel⟩ := hadd
      by_cases hcs : cs = []
      · subst hcs
        rw [draw?, Option.some.injEq] at hd
        subst hd
        intro line hline
        rw [List.mem_singleton.mp hline, Drawing.leaf]
      · obtain ⟨d', ds, hd', hds, habove⟩ := (Labelled.node hlabel hlabelled).exists_above hcs
        obtain rfl : d' = d := Option.some.inj (hd'.symm.trans hd)
        apply (habove (haddlabel hcs ds hds) ?_).1
        intro d hd
        obtain ⟨o, ho, hod⟩ := exists_of_mem_drawAll hds hd
        exact ih o ho (haddcs o ho) hod

/-! ### Visible labels -/

/-- All labels consist of visible ASCII characters and blanks, and none is empty. -/
inductive Plain : Outline → Prop
  | node {label : Text} {cs : List Outline} (hlabel : label ≠ [] ∧ label.AllVisible)
      (hcs : ∀ o ∈ cs, Plain o) : Plain (.node label cs)

theorem Plain.labelled [LawfulMeasuring] {o : Outline} (h : o.Plain) :
  o.Labelled
  := by
  induction h with
  | node hlabel _ ih =>
      refine .node ?_ ih
      rw [LawfulMeasuring.width_visible hlabel.2]
      exact List.length_pos_iff.mpr hlabel.1

theorem Plain.plain_draw [LawfulMeasuring] {o : Outline} {d : Drawing} (h : o.Plain)
    (hd : o.draw? = some d) :
  d.Plain
  := by
  induction h generalizing d with
  | @node label cs hlabel hplain ih =>
      by_cases hcs : cs = []
      · subst hcs
        rw [draw?, Option.some.injEq] at hd
        subst hd
        exact fun line hline => List.mem_singleton.mp hline ▸ hlabel.2
      · obtain ⟨ds, hds, hroots⟩ := exists_drawAll fun o ho => (hplain o ho).labelled.exists_draw
        rw [draw?_node hcs, hds, Option.bind_some] at hd
        apply Drawing.plain_above hroots hlabel.2 ?_ hd
        intro d hd
        obtain ⟨o, ho, hod⟩ := exists_of_mem_drawAll hds hd
        exact ih o ho hod

/-- In the drawing of an outline with visible labels, widths add up. -/
theorem Plain.additive [LawfulMeasuring] {o : Outline} (h : o.Plain) :
  o.Additive
  := by
  induction h with
  | @node label cs hlabel hplain ih =>
      refine .node ih fun _ ds hds => Drawing.additive_of_plain hlabel.2 ?_
      intro d hd
      obtain ⟨o, ho, hod⟩ := exists_of_mem_drawAll hds hd
      exact (hplain o ho).plain_draw hod

end

/-- A loop over a body of one statement. -/
def loopOutline : Outline :=
  .node "WhileStatement" [.leaf "Cond: x", .node "Body [1]" [.leaf "Expr: y"]]

example : loopOutline.draw?.map (·.lines) = (some [
    " WhileStatement   ",
    "   /    |     \\   ",
    "Cond: x   Body [1]",
    "              |   ",
    "           Expr: y"] : Option (List Text)) := by decide +kernel

theorem plain_loopOutline :
  loopOutline.Plain
  := by
  have hleaf : ∀ label : Text, label ≠ [] → label.AllVisible → (leaf label).Plain :=
    fun label hne hvisible => .node ⟨hne, hvisible⟩ fun _ ho => nomatch ho
  have hcond := hleaf "Cond: x" (by decide) (Text.allVisible_of_all (by decide))
  have hexpr := hleaf "Expr: y" (by decide) (Text.allVisible_of_all (by decide))
  have hbody : (node "Body [1]" [.leaf "Expr: y"]).Plain :=
    .node ⟨by decide, Text.allVisible_of_all (by decide)⟩ (by simpa using hexpr)
  refine .node ⟨by decide, Text.allVisible_of_all (by decide)⟩ ?_
  simpa using ⟨hcond, hbody⟩

end Outline

/-! ### Outlines of programs -/

theorem hasVisible_spannedLabel (fs : Option FileSet) (label : Text) (s : Span) :
  (spannedLabel fs label s).HasVisible
  := Text.HasVisible.append_right _ (Text.hasVisible_of_any (by decide))

section

variable [Measuring]

theorem labelled_leaf [LawfulMeasuring] {label : Text} (h : label.HasVisible) :
  (Outline.leaf label).Labelled
  := .node (LawfulMeasuring.width_pos h) fun _ ho => nomatch ho

theorem Expr.labelled_outline [LawfulMeasuring] (role : Text) (e : Expr) :
  (e.outline role).Labelled
  := labelled_leaf (((Text.hasVisible_of_any (by decide)).append_right role).append_left e.inline)

namespace Stmt

theorem labelled_name [LawfulMeasuring] (role : Text)
    (h : role.any (fun b => decide (IsVisible b)) = true) (name : Text) :
  (Outline.leaf (role ++ name)).Labelled
  := labelled_leaf ((Text.hasVisible_of_any h).append_left name)

theorem labelled_params [LawfulMeasuring] (params : List Param) :
  (Outline.leaf ("Params: (" ++ Text.join ", " (params.map (·.name)) ++ ")")).Labelled
  := labelled_leaf (Text.HasVisible.append_right _ (Text.hasVisible_of_any (by decide)))

theorem labelled_spanned [LawfulMeasuring] (fs : Option FileSet) (label : Text) (s : Span)
    {cs : List Outline} (h : ∀ o ∈ cs, o.Labelled) :
  (Outline.node (spannedLabel fs label s) cs).Labelled
  := .node (LawfulMeasuring.width_pos (hasVisible_spannedLabel fs label s)) h

theorem labelled_block [LawfulMeasuring] (role : Text) (n : Nat) {cs : List Outline}
    (h : ∀ o ∈ cs, o.Labelled) :
  (Outline.node (blockLabel role n) cs).Labelled
  := .node (LawfulMeasuring.width_pos (.append_right _ (Text.hasVisible_of_any (by decide)))) h

mutual

theorem labelled_outline [LawfulMeasuring] (fs : Option FileSet) (s : Stmt) :
  (s.outline fs).Labelled
  := by
  cases s with
  | letVar s name _ value =>
      have hname := labelled_name "Name: " (by decide) name
      exact labelled_spanned fs _ s (by simpa using ⟨hname, value.labelled_outline "Value"⟩)
  | assign s name _ value =>
      have hname := labelled_name "Target: " (by decide) name
      exact labelled_spanned fs _ s (by simpa using ⟨hname, value.labelled_outline "Value"⟩)
  | ifElse s cond thenBody elseBody hasElse =>
      have hcond := cond.labelled_outline "Cond"
      have hthen := labelled_block "Then" thenBody.length (labelled_outlines fs thenBody)
      have helse := labelled_block "Else" elseBody.length (labelled_outlines fs elseBody)
      cases hasElse with
      | true => exact labelled_spanned fs _ s (by simpa using ⟨hcond, hthen, helse⟩)
      | false => exact labelled_spanned fs _ s (by simpa using ⟨hcond, hthen⟩)
  | «while» s cond body =>
      have hbody := labelled_block "Body" body.length (labelled_outlines fs body)
      exact labelled_spanned fs _ s (by simpa using ⟨cond.labelled_outline "Cond", hbody⟩)
  | function s name _ params body =>
      have hname := labelled_name "Name: " (by decide) name
      have hbody := labelled_block "Body" body.length (labelled_outlines fs body)
      exact labelled_spanned fs _ s (by simpa using ⟨hname, labelled_params params, hbody⟩)
  | ret s value =>
      cases value with
      | none => exact labelled_spanned fs _ s fun _ ho => nomatch ho
      | some value =>
          exact labelled_spanned fs _ s (by simpa using value.labelled_outline "Value")
  | print s value => exact labelled_spanned fs _ s (by simpa using value.labelled_outline "Value")
  | expr s value => exact labelled_spanned fs _ s (by simpa using value.labelled_outline "Expr")
  | unknown s _ => exact labelled_leaf (hasVisible_spannedLabel fs _ s)
  | missing _ => exact labelled_leaf (Text.hasVisible_of_any (by decide))

theorem labelled_outlines [LawfulMeasuring] (fs : Option FileSet) (ss : List Stmt) :
  ∀ o ∈ outlines fs ss, o.Labelled
  := by
  cases ss with
  | nil => exact fun _ ho => nomatch ho
  | cons s ss =>
      rw [outlines]
      exact List.forall_mem_cons.mpr ⟨labelled_outline fs s, labelled_outlines fs ss⟩

end

end Stmt

/-- All labels in the outline of a program take a column. -/
theorem Tree.labelled_outline [LawfulMeasuring] (t : Tree) (fs : Option FileSet) :
  (t.outline fs).Labelled
  := Stmt.labelled_spanned fs _ t.span (Stmt.labelled_outlines fs t.statements)

/-- The outline of a program can be drawn, as can every outline whose labels take a column.  If
widths add up where lines are put together, the lines of the drawing are equally wide, and each
child hangs at a connector of the row below the label. -/
theorem drawings_are_aligned [LawfulMeasuring] :
  (∀ (t : Tree) (fs : Option FileSet), (t.outline fs).Labelled)
    ∧ ∀ o : Outline, o.Labelled → ∃ d, o.draw? = some d ∧ d.Rooted
      ∧ (o.Additive → d.Rectangular
        ∧ (o.children ≠ [] →
          ∃ ds, List.Forall₂ (fun c d => c.draw? = some d) o.children ds ∧ d.Above ds))
  := by
  refine ⟨Tree.labelled_outline, ?_⟩
  intro o h
  obtain ⟨d, hd, hroot⟩ := h.exists_draw
  refine ⟨d, hd, hroot, ?_⟩
  intro hadd
  refine ⟨h.rectangular hadd hd, ?_⟩
  intro hcs
  obtain ⟨label, cs⟩ := o
  obtain ⟨d', ds, hd', hds, habove⟩ := h.exists_above hcs
  obtain rfl : d' = d := Option.some.inj (hd'.symm.trans hd)
  obtain ⟨-, hlabelled⟩ := h
  obtain ⟨haddcs, haddlabel⟩ := hadd
  refine ⟨ds, Outline.drawAll?_eq_some.mp hds, (habove (haddlabel hcs ds hds) ?_).2⟩
  intro d hd
  obtain ⟨o, ho, hod⟩ := Outline.exists_of_mem_drawAll hds hd
  exact (hlabelled o ho).rectangular (haddcs o ho) hod

end

theorem drawing_of_loop :
  Outline.loopOutline.Labelled ∧ Outline.loopOutline.Additive
    ∧ ∃ d, Outline.loopOutline.draw? = some d ∧ d.Rooted ∧ d.Rectangular
      ∧ ∃ ds, List.Forall₂ (fun c d => c.draw? = some d) Outline.loopOutline.children ds
        ∧ d.Above ds
  := by
  have hlabelled := Outline.plain_loopOutline.labelled
  have hadd := Outline.plain_loopOutline.additive
  obtain ⟨d, hd, hroot, halign⟩ := drawings_are_aligned.2 Outline.loopOutline hlabelled
  obtain ⟨hrect, habove⟩ := halign hadd
  exact ⟨hlabelled, hadd, d, hd, hroot, hrect, habove (List.cons_ne_nil _ _)⟩

end ThreeAddress
