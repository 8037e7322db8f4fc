import ThreeAddress.Proofs.Source.Lines
import ThreeAddress.Proofs.Token.Pieces
import ThreeAddress.Text.Compose

/-!
# Tokens tile a file

The tokens of a file stand one after the other, and nothing but blanks and comments stands between
them.  `Scans` reads a text from an offset on, token by token; draining a lexer reads what `Scans`
reads, for every number of steps that is large enough.
-/

namespace ThreeAddress

section

variable [Composing]

/-- The token of a piece that starts at an offset. -/
def Lexed.ofPiece (file : FileId) (start : Nat) (kind : TokenKind) (problem : Option LexProblem)
    (piece : Text) : Lexed where
  token :=
    { kind
      span := ⟨file, start.toUInt32, (start + piece.length).toUInt32⟩
      text := if kind = .string then piece.compose else piece }
  problem

/-- The end of a file at an offset. -/
def Lexed.ofEnd (file : FileId) (offset : Nat) : Lexed :=
  ⟨⟨.eof, ⟨file, offset.toUInt32, offset.toUInt32⟩, []⟩, none⟩

/-- From an offset on, a text is read as some tokens, up to an offset where a text is left. -/
inductive Scans (file : FileId) : Nat → Text → List Lexed → Nat → Text → Prop
  | done {offset : Nat} {t : Text} :
    Scans file offset t [] offset t
  | token {offset stop : Nat} {gap piece rest after : Text} {kind : TokenKind}
      {problem : Option LexProblem} {ls : List Lexed}
      (hgap : Trivia gap (piece ++ rest)) (hsolid : Solid (piece ++ rest))
      (hpiece : Piece kind problem piece rest)
      (hrest : Scans file (offset + gap.length + piece.length) rest ls stop after) :
    Scans file offset (gap ++ (piece ++ rest))
      (.ofPiece file (offset + gap.length) kind problem piece :: ls) stop after

namespace Lexer

/-- A token is read behind blanks and comments. -/
theorem scan_of_piece {c : Cursor} {gap piece rest : Text} {kind : TokenKind}
    {problem : Option LexProblem} (hc : c.rest = gap ++ (piece ++ rest))
    (hgap : Trivia gap (piece ++ rest)) (hsolid : Solid (piece ++ rest))
    (hpiece : Piece kind problem piece rest) :
  scan c = (.ofPiece c.file (c.offset + gap.length) kind problem piece,
    (c.skip gap.length).skip piece.length)
  := by
  have hskip : (c.skip gap.length).rest = piece ++ rest := by
    rw [Cursor.skip]
    dsimp only
    rw [hc, List.drop_left]
  obtain ⟨b, t, ht⟩ := List.exists_cons_of_ne_nil hpiece.ne_nil
  have hfirst : Lexeme.first b (t ++ rest) = ⟨kind, piece.length, problem⟩ := by
    apply hpiece.first_eq
    rw [ht, List.cons_append]
  have htake : (b :: (t ++ rest)).take piece.length = piece := by
    rw [← List.cons_append, ← ht, List.take_left]
  rw [scan, hc, hgap.triviaLength_append hsolid]
  dsimp only
  rw [hskip, ht, List.cons_append]
  dsimp only
  rw [← ht, hfirst]
  dsimp only
  rw [htake]
  rfl

/-- Behind the last blanks and comments the end of the file is read. -/
theorem scan_of_trivia {c : Cursor} (hc : Trivia c.rest []) :
  scan c = (.ofEnd c.file (c.offset + c.rest.length), c.skip c.rest.length)
  := by
  have hlength : triviaLength c.rest = c.rest.length := by
    rw [← List.append_nil c.rest, hc.triviaLength_append ⟨by simp, by simp⟩, List.append_nil]
  have hskip : (c.skip c.rest.length).rest = [] := by
    rw [Cursor.skip]
    dsimp only
    rw [List.drop_length]
  rw [scan, hlength]
  dsimp only
  rw [hskip]
  rfl

/-- Draining reads all tokens and then the end of the file. -/
theorem drain_of_scans {file : FileId} {offset stop : Nat} {t gap : Text} {ls : List Lexed}
    (h : Scans file offset t ls stop gap) (hgap : Trivia gap []) {c : Cursor}
    (hfile : c.file = file) (hoffset : c.offset = offset) (hrest : c.rest = t) {steps : Nat}
    (hsteps : ls.length < steps) :
  (drain steps { cursor := c }).1 = ls ++ [.ofEnd file (stop + gap.length)]
  := by
  induction h generalizing c steps with
  | done =>
      obtain ⟨steps, rfl⟩ := Nat.exists_eq_add_of_lt hsteps
      subst hfile hoffset hrest
      rw [drain, next]
      dsimp only
      rw [scan_of_trivia hgap]
      rfl
  | @token offset stop gap piece rest after kind problem ls hbefore hsolid hpiece hscans ih =>
      obtain ⟨steps, rfl⟩ := Nat.exists_eq_add_of_lt hsteps
      subst hfile hoffset
      have hkind : (Lexed.ofPiece c.file (c.offset + gap.length) kind problem piece).token.kind
          ≠ .eof := hpiece.kind_class.2
      have hafter : ((c.skip gap.length).skip piece.length).rest = rest := by
        simp only [Cursor.skip, hrest, List.drop_left]
      have htail := @ih hgap ((c.skip gap.length).skip piece.length) rfl rfl hafter
        (ls.length + 1 + steps) (by omega)
      rw [drain, next]
      dsimp only
      rw [scan_of_piece hrest hbefore hsolid hpiece]
      dsimp only
      rw [if_neg hkind]
      dsimp only
      rw [List.length_cons, htail, List.cons_append]

end Lexer

namespace Scans

variable {file : FileId} {offset stop : Nat} {t after : Text} {ls : List Lexed}

theorem append {ls' : List Lexed} {stop' : Nat} {after' : Text}
    (h : Scans file offset t ls stop after) (h' : Scans file stop after ls' stop' after') :
  Scans file offset t (ls ++ ls') stop' after'
  := by
  induction h with
  | done => exact h'
  | token hgap hsolid hpiece hrest ih => exact .token hgap hsolid hpiece (ih h')

theorem single {kind : TokenKind} {problem : Option LexProblem} {piece rest : Text}
    (hsolid : Solid (piece ++ rest)) (hpiece : Piece kind problem piece rest) :
  Scans file offset (piece ++ rest) [.ofPiece file offset kind problem piece]
    (offset + piece.length) rest
  := .token .nil hsolid hpiece .done

/-- A blank may stand before tokens. -/
theorem blank {b : UInt8} (hb : isBlankByte b) (hls : ls ≠ [])
    (h : Scans file (offset + 1) t ls stop after) :
  Scans file offset (b :: t) ls stop after
  := by
  cases h with
  | done => exact absurd rfl hls
  | @token _ _ gap piece rest _ kind problem ls hgap hsolid hpiece hrest =>
      have hoffset : offset + (b :: gap).length = offset + 1 + gap.length := by
        rw [List.length_cons]
        omega
      rw [← hoffset] at hrest ⊢
      exact .token (.blank hb hgap) hsolid hpiece hrest

/-- Every token read is made of a piece. -/
theorem exists_piece (h : Scans file offset t ls stop after) {l : Lexed} (hl : l ∈ ls) :
  ∃ start kind problem piece rest, l = .ofPiece file start kind problem piece
    ∧ Piece kind problem piece rest
  := by
  induction h with
  | done => cases hl
  | token hgap hsolid hpiece hrest ih =>
      obtain rfl | hl := List.mem_cons.mp hl
      · exact ⟨_, _, _, _, _, rfl, hpiece⟩
      · apply ih hl

/-- The tokens read take the bytes between the two offsets, at least one byte each. -/
theorem length_le (h : Scans file offset t ls stop after) :
  stop + after.length = offset + t.length ∧ offset + ls.length ≤ stop
  := by
  induction h with
  | done => simp
  | token hgap hsolid hpiece hrest ih =>
      have hpos := List.length_pos_iff.mpr hpiece.ne_nil
      simp only [List.length_append, List.length_cons]
      omega

end Scans

/-- Every text is read up to blanks and comments at its end. -/
theorem exists_scans (file : FileId) (offset : Nat) (t : Text) :
  ∃ ls stop gap, Scans file offset t ls stop gap ∧ Trivia gap []
  := by
  induction hn : t.length using Nat.strongRecOn generalizing offset t with
  | ind n ih =>
      obtain ⟨gap, after, rfl, hgap, hsolid⟩ := exists_trivia t
      cases after with
      | nil =>
          rw [List.append_nil]
          exact ⟨[], offset, gap, .done, hgap⟩
      | cons b t =>
          obtain ⟨piece, rest, ht, -, hpiece⟩ := Lexeme.describes_first b t
          have hpos := List.length_pos_iff.mpr hpiece.ne_nil
          rw [ht] at hgap hsolid hn ⊢
          have hlength : rest.length < n := by
            rw [← hn, List.length_append, List.length_append]
            omega
          obtain ⟨ls, stop, last, hscans, hlast⟩ :=
            ih rest.length hlength (offset + gap.length + piece.length) rest rfl
          exact ⟨_, stop, last, .token hgap hsolid hpiece hscans, hlast⟩

/-- With at least one step for each byte and one for the end, draining a file reads all its
tokens. -/
theorem File.drain_of_scans {f : File} {ls : List Lexed} {stop : Nat} {gap : Text}
    (h : Scans f.id 0 f.content ls stop gap) (hgap : Trivia gap []) {steps : Nat}
    (hsteps : f.content.length < steps) :
  ((Lexer.ofFile f).drain steps).1 = ls ++ [.ofEnd f.id f.content.length]
  := by
  obtain ⟨hstop, hlength⟩ := h.length_le
  have hcount : ls.length < steps := by omega
  have hdrain := Lexer.drain_of_scans h hgap (c := Cursor.ofFile f) rfl rfl rfl hcount
  rw [hstop, Nat.zero_add] at hdrain
  exact hdrain

theorem File.lex_of_scans {f : File} {ls : List Lexed} {stop : Nat} {gap : Text}
    (h : Scans f.id 0 f.content ls stop gap) (hgap : Trivia gap []) :
  f.lex = ls ++ [.ofEnd f.id f.content.length]
  := by
  apply File.drain_of_scans h hgap
  simp [Cursor.ofFile, Lexer.ofFile]

/-! ### The places of tokens -/

/-- The bytes of a span of a file. -/
def File.bytes (f : File) (s : Span) : Text := f.slice s.start.toNat s.stop.toNat

/-- A token that is not the end of a file: where it stands, its text, and the piece that it is of
the content. -/
structure File.Holds (f : File) (l : Lexed) : Prop where
  kind_ne : l.token.kind ≠ .eof
  file_eq : l.token.span.file = f.id
  start_lt : l.token.span.start < l.token.span.stop
  stop_le : l.token.span.stop.toNat ≤ f.content.length
  solid : Solid (f.content.drop l.token.span.start.toNat)
  piece : Piece l.token.kind l.problem (f.bytes l.token.span)
    (f.content.drop l.token.span.stop.toNat)
  text_eq : l.token.text =
    if l.token.kind = .string then (f.bytes l.token.span).compose else f.bytes l.token.span

/-- From one span to the next there are only blanks and comments. -/
structure File.Between (f : File) (s s' : Span) : Prop where
  stop_le : s.stop ≤ s'.start
  trivia : Trivia (f.slice s.stop.toNat s'.start.toNat) (f.content.drop s'.start.toNat)

/-- Some tokens tile a file: each is a piece of the content, there is only trivia between them, and
the last one is the end of the file. -/
structure File.Tiled (f : File) (ls : List Lexed) : Prop where
  holds : ∀ l ∈ ls.dropLast, f.Holds l
  last_eq : ls.getLast? = some (.ofEnd f.id f.content.length)
  between : List.IsChain f.Between (⟨f.id, 0, 0⟩ :: ls.map (·.token.span))
  increasing : (ls.map (·.token.span)).Pairwise fun s s' => s.start < s'.start ∧ s.stop ≤ s'.start

theorem File.holds_ofPiece {f : File} (hsize : f.content.length < UInt32.size) {start : Nat}
    {piece rest : Text} {kind : TokenKind} {problem : Option LexProblem}
    (hcontent : f.content.drop start = piece ++ rest) (hsolid : Solid (piece ++ rest))
    (hpiece : Piece kind problem piece rest) :
  f.Holds (.ofPiece f.id start kind problem piece)
  := by
  have hpos := List.length_pos_iff.mpr hpiece.ne_nil
  have hlength := congrArg List.length hcontent
  rw [List.length_drop, List.length_append] at hlength
  have hstart : start.toUInt32.toNat = start := toNat_toUInt32 (by omega) hsize
  have hstop : (start + piece.length).toUInt32.toNat = start + piece.length :=
    toNat_toUInt32 (by omega) hsize
  have hbytes : f.bytes ⟨f.id, start.toUInt32, (start + piece.length).toUInt32⟩ = piece := by
    rw [File.bytes, hstart, hstop, File.slice_of_append hcontent]
  constructor
  · exact hpiece.kind_class.2
  · rfl
  · rw [Lexed.ofPiece, UInt32.lt_iff_toNat_lt, hstart, hstop]
    omega
  · rw [Lexed.ofPiece, hstop]
    omega
  · rw [Lexed.ofPiece, hstart, hcontent]
    exact hsolid
  · rw [Lexed.ofPiece, hbytes, hstop, drop_of_append hcontent]
    exact hpiece
  · rw [Lexed.ofPiece, hbytes]

omit [Composing] in
theorem File.between_of_trivia {f : File} {s s' : Span} {gap rest : Text}
    (hcontent : f.content.drop s.stop.toNat = gap ++ rest) (hgap : Trivia gap rest)
    (hstart : s'.start.toNat = s.stop.toNat + gap.length) :
  f.Between s s'
  := by
  constructor
  · rw [UInt32.le_iff_toNat_le, hstart]
    apply Nat.le_add_right
  · rw [hstart, File.slice_of_append hcontent, drop_of_append hcontent]
    exact hgap

namespace Scans

variable {f : File} {offset stop : Nat} {t after : Text} {ls : List Lexed}

theorem holds (hsize : f.content.length < UInt32.size) (h : Scans f.id offset t ls stop after)
    (ht : f.content.drop offset = t) :
  ∀ l ∈ ls, f.Holds l
  := by
  induction h with
  | done => simp
  | token hgap hsolid hpiece hrest ih =>
      have hpieces := drop_of_append ht
      rw [List.forall_mem_cons]
      constructor
      · apply File.holds_ofPiece hsize hpieces hsolid hpiece
      · apply ih (drop_of_append hpieces)

/-- From the place before a text on, the spans of its tokens follow one another. -/
theorem between (hsize : f.content.length < UInt32.size) (h : Scans f.id offset t ls stop after)
    (ht : f.content.drop offset = t) (hoffset : offset ≤ f.content.length)
    (hafter : Trivia after []) {s : Span} (hs : s.stop.toNat = offset) :
  List.IsChain f.Between
    (s :: (ls ++ [Lexed.ofEnd f.id f.content.length]).map fun l => l.token.span)
  := by
  induction h generalizing s with
  | @done offset t =>
      have hlength := congrArg List.length ht
      rw [List.length_drop] at hlength
      have hbetween : f.Between s (Lexed.ofEnd f.id f.content.length).token.span := by
        subst hs
        apply File.between_of_trivia _ hafter
        · rw [Lexed.ofEnd, toNat_toUInt32 (Nat.le_refl _) hsize]
          omega
        · rw [ht, List.append_nil]
      exact List.isChain_cons_cons.mpr ⟨hbetween, .singleton _⟩
  | @token offset stop gap piece rest after kind problem ls hgap hsolid hpiece hrest ih =>
      have hlength := congrArg List.length ht
      simp only [List.length_drop, List.length_append] at hlength
      have hpos := List.length_pos_iff.mpr hpiece.ne_nil
      apply List.isChain_cons_cons.mpr
      constructor
      · subst hs
        apply File.between_of_trivia ht hgap
        apply toNat_toUInt32 _ hsize
        omega
      · apply ih (drop_of_append (drop_of_append ht)) _ hafter
        · apply toNat_toUInt32 _ hsize
          omega
        · omega

end Scans

namespace File

variable {f : File} {s e : Span} {ss : List Span}

omit [Composing] in
theorem le_of_isChain (h : List.IsChain f.Between (s :: ss)) (hss : ∀ s' ∈ ss, s'.start ≤ s'.stop) :
  ∀ s' ∈ ss, s.stop ≤ s'.start
  := by
  induction ss generalizing s with
  | nil => simp
  | cons a ss ih =>
      obtain ⟨hbetween, hchain⟩ := List.isChain_cons_cons.mp h
      obtain ⟨ha, hss⟩ := List.forall_mem_cons.mp hss
      rw [List.forall_mem_cons]
      use hbetween.stop_le
      intro s' hs'
      calc s.stop ≤ a.start := hbetween.stop_le
        _ ≤ a.stop := ha
        _ ≤ s'.start := ih hchain hss s' hs'

omit [Composing] in
/-- Spans that follow one another and are not empty are in order and disjoint. -/
theorem increasing_of_isChain (h : List.IsChain f.Between (s :: (ss ++ [e])))
    (hss : ∀ s' ∈ ss, s'.start < s'.stop) (he : e.start ≤ e.stop) :
  (ss ++ [e]).Pairwise fun s s' => s.start < s'.start ∧ s.stop ≤ s'.start
  := by
  induction ss generalizing s with
  | nil => apply List.pairwise_singleton
  | cons a ss ih =>
      obtain ⟨-, hchain⟩ := List.isChain_cons_cons.mp h
      obtain ⟨ha, hss⟩ := List.forall_mem_cons.mp hss
      have hle : ∀ s' ∈ ss ++ [e], s'.start ≤ s'.stop := by
        intro s' hs'
        obtain hs' | hs' := List.mem_append.mp hs'
        · apply UInt32.le_of_lt (hss s' hs')
        · rw [List.mem_singleton.mp hs']
          exact he
      apply List.pairwise_cons.mpr
      constructor
      · intro s' hs'
        have hstop := le_of_isChain hchain hle s' hs'
        exact ⟨UInt32.lt_of_lt_of_le ha hstop, hstop⟩
      · apply ih hchain hss

end File

omit [Composing] in
/-- What is found in some tokens: the area and the severity of each finding, and its place. -/
theorem findings_eq {ls : List Lexed}
    (hls : ∀ l ∈ ls, l.token.kind = .invalid ↔ l.problem.isSome) :
  (ls.filterMap (·.diagnostic?)).map (fun d => (Code.area? d.code.number, d.severity, d.span))
    = (ls.filter (·.token.kind = .invalid)).map fun l => (some "LEX", .error, l.token.span)
  := by
  induction ls with
  | nil => rfl
  | cons l ls ih =>
      obtain ⟨hl, hls⟩ := List.forall_mem_cons.mp hls
      cases hproblem : l.problem with
      | none =>
          have hkind : l.token.kind ≠ .invalid := by simp [hl, hproblem]
          simpa [Lexed.diagnostic?, hproblem, hkind] using ih hls
      | some p =>
          have hkind : l.token.kind = .invalid := by simp [hl, hproblem]
          have harea : Code.area? p.code.number = some "LEX" := by cases p <;> rfl
          simpa [Lexed.diagnostic?, hproblem, hkind, harea, LexProblem.diagnostic,
            Diagnostic.error] using ih hls

/-- The tokens of a file that is shorter than four gigabytes tile it, whatever bytes it holds; they
are read in at most one step for each byte and one for the end, and there is exactly one finding for
each invalid token, at its place. -/
theorem File.lex_tiles_content (f : File) (hsize : f.content.length < UInt32.size) :
  f.Tiled f.lex ∧
    (∀ steps, f.content.length < steps → ((Lexer.ofFile f).drain steps).1 = f.lex) ∧
    (f.lex.filterMap (·.diagnostic?)).map (fun d => (Code.area? d.code.number, d.severity, d.span))
      = (f.lex.filter (·.token.kind = .invalid)).map fun l => (some "LEX", .error, l.token.span)
  := by
  obtain ⟨ls, stop, gap, hscans, hgap⟩ := exists_scans f.id 0 f.content
  have hlex := File.lex_of_scans hscans hgap
  have hholds := hscans.holds hsize rfl
  have hbetween : List.IsChain f.Between (⟨f.id, 0, 0⟩ :: f.lex.map (·.token.span)) := by
    rw [hlex]
    apply hscans.between hsize rfl (Nat.zero_le _) hgap rfl
  constructor
  · constructor
    · rw [hlex, List.dropLast_concat]
      exact hholds
    · rw [hlex, List.getLast?_concat]
    · exact hbetween
    · rw [hlex, List.map_append] at hbetween ⊢
      apply increasing_of_isChain hbetween
      · intro s hs
        obtain ⟨l, hl, rfl⟩ := List.mem_map.mp hs
        exact (hholds l hl).start_lt
      · apply UInt32.le_refl
  · constructor
    · intro steps hsteps
      rw [hlex, File.drain_of_scans hscans hgap hsteps]
    · apply findings_eq
      intro l hl
      rw [hlex] at hl
      obtain hl | hl := List.mem_append.mp hl
      · exact (hholds l hl).piece.kind_class.1
      · rw [List.mem_singleton.mp hl]
        simp [Lexed.ofEnd]

end

/-- A line with a lone `&`, a letter after digits, a slash, and a string that is not closed. -/
def brokenLine : File := { content := "a& <=12ab// &\n/\"x" }

/-- The tokens of `brokenLine` tile it. -/
theorem brokenLine_tiled :
  brokenLine.content.length < UInt32.size ∧
    brokenLine.lex.map (fun l => (l.token.kind, l.token.span.start, l.token.span.stop))
      = [(.ident, 0, 1), (.invalid, 1, 2), (.ltEq, 3, 5), (.invalid, 5, 9), (.slash, 14, 15),
        (.invalid, 15, 17), (.eof, 17, 17)] ∧
    brokenLine.Tiled brokenLine.lex
  := by
  have hsize : brokenLine.content.length < UInt32.size := by decide
  exact ⟨hsize, by decide +kernel, (brokenLine.lex_tiles_content hsize).1⟩

end ThreeAddress
