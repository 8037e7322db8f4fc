import ThreeAddress.Proofs.Source.CleanUp
import ThreeAddress.Proofs.Text.Composition
import ThreeAddress.Proofs.Token.Tiling

/-!
# Tokens are read again

The texts of the tokens of a file, written one after the other with one blank between neighbours,
are read as the same tokens.  A token is read again before a blank because nothing goes on at a
blank: no word and no run of digits, no operator of two bytes and no comment.  A string is read
again because composing it keeps its quotes, makes no quote and no newline between them, and changes
a composed string no more.
-/

namespace ThreeAddress

/-- A text is empty or begins with a blank. -/
def Apart (rest : Text) : Prop := ∀ b ∈ rest.head?, b = 32

theorem apart_nil :
  Apart []
  := by
  rintro _ ⟨⟩

theorem apart_blank (t : Text) :
  Apart (32 :: t)
  := by
  rintro _ ⟨⟩
  rfl

/-- A text begins like a token: with no blank, no byte of a byte-order mark, and no comment. -/
def StartsToken (t : Text) : Prop :=
  ∃ b t', t = b :: t' ∧ isBlankByte b = false ∧ b ≠ 0xEF ∧ (b = 47 → t' = [])

theorem StartsToken.solid {t rest : Text} (h : StartsToken t) (hrest : Apart rest) :
  Solid (t ++ rest)
  := by
  obtain ⟨b, t, rfl, hblank, -, hslash⟩ := h
  constructor
  · rintro _ ⟨⟩
    exact hblank
  · intro body hbody
    obtain ⟨rfl, hsecond⟩ := List.cons.inj hbody
    obtain rfl := hslash rfl
    obtain rfl : rest = 47 :: body := hsecond
    cases hrest 47 rfl

/-! ### Pieces before a blank -/

/-- The bytes of words and numbers are no blanks, no slashes and in no byte-order mark. -/
theorem ne_of_isWordByte {b : UInt8} (h : isWordByte b) :
  isBlankByte b = false ∧ b ≠ 0xEF ∧ b ≠ 47 ∧ b ≠ 10
  := by
  simp only [isWordByte, isWordStart, isDigitByte, isBlankByte, Bool.or_eq_true, Bool.and_eq_true,
    beq_iff_eq, decide_eq_true_eq, Bool.or_eq_false_iff, beq_eq_false_iff_ne, ne_eq,
    UInt8.le_iff_toNat_le, ← UInt8.toNat_inj, UInt8.reduceToNat] at h ⊢
  omega

theorem isWordByte_of_isDigitByte {b : UInt8} (h : isDigitByte b) :
  isWordByte b
  := by
  rw [isWordByte, h, Bool.or_true]

theorem startsToken_of_isWordByte {b : UInt8} (h : isWordByte b) (w : Text) :
  StartsToken (b :: w)
  := by
  obtain ⟨hblank, hmark, hslash, -⟩ := ne_of_isWordByte h
  exact ⟨b, w, rfl, hblank, hmark, fun heq => absurd heq hslash⟩

theorem newline_notMem_of_isWordByte {w : Text} (h : ∀ b ∈ w, isWordByte b) :
  10 ∉ w
  := fun hmem => (ne_of_isWordByte (h 10 hmem)).2.2.2 rfl

namespace Piece

variable {kind : TokenKind} {piece rest : Text}

/-- A piece without a problem is the same piece before a blank. -/
theorem before_blank {rest' : Text} (h : Piece kind none piece rest) (hrest : Apart rest') :
  Piece kind none piece rest'
  := by
  have hpairs : ∀ e ∈ pairOperators, e.1.2 ≠ 32 := by decide
  apply h.before
  · intro b _ c hc kind' hpair
    exact hpairs _ hpair (hrest c hc)
  · intro b hb
    rw [hrest b hb]
    rfl

/-- A piece without a problem begins like a token and has no newline. -/
theorem startsToken (h : Piece kind none piece rest) :
  StartsToken piece ∧ 10 ∉ piece
  := by
  have hpairs : ∀ e ∈ pairOperators, StartsToken [e.1.1, e.1.2] ∧ 10 ∉ [e.1.1, e.1.2] := by
    intro e he
    have hbytes : ∀ e ∈ pairOperators, isBlankByte e.1.1 = false ∧ e.1.1 ≠ 0xEF ∧ e.1.1 ≠ 47
        ∧ 10 ∉ [e.1.1, e.1.2] := by decide
    obtain ⟨hblank, hmark, hslash, hline⟩ := hbytes e he
    exact ⟨⟨_, _, rfl, hblank, hmark, fun heq => absurd heq hslash⟩, hline⟩
  have hsingles : ∀ e ∈ singleOperators, isBlankByte e.1 = false ∧ e.1 ≠ 0xEF ∧ 10 ∉ [e.1] := by
    decide
  cases h with
  | @word b w _ hb hw =>
      have hall : ∀ d ∈ b :: w, isWordByte d := by
        apply List.forall_mem_cons.mpr ⟨_, hw.all⟩
        rw [isWordByte, hb, Bool.true_or]
      exact ⟨startsToken_of_isWordByte (hall b List.mem_cons_self) w,
        newline_notMem_of_isWordByte hall⟩
  | @number b w _ hb hw _ =>
      have hall : ∀ d ∈ b :: w, isWordByte d :=
        List.forall_mem_cons.mpr ⟨isWordByte_of_isDigitByte hb,
          fun d hd => isWordByte_of_isDigitByte (hw.all d hd)⟩
      exact ⟨startsToken_of_isWordByte (hall b List.mem_cons_self) w,
        newline_notMem_of_isWordByte hall⟩
  | string _ hline =>
      refine ⟨⟨34, _, rfl, by decide, by decide, fun heq => absurd heq (by decide)⟩, ?_⟩
      simpa using hline
  | pair hpair => apply hpairs _ hpair
  | single hsingle _ =>
      obtain ⟨hblank, hmark, hline⟩ := hsingles _ hsingle
      exact ⟨⟨_, [], rfl, hblank, hmark, fun _ => rfl⟩, hline⟩

end Piece

/-! ### Tokens that are read again -/

section

variable [Composing]

/-- The text of a token is read as the token again before a blank. -/
structure Token.Reread (tok : Token) : Prop where
  piece : ∀ rest, Apart rest → Piece tok.kind none tok.text rest
  composed : tok.kind = .string → tok.text.compose = tok.text

theorem Token.reread_of_piece [LawfulComposing] {tok : Token} {piece rest : Text}
    (hpiece : Piece tok.kind none piece rest)
    (htext : tok.text = if tok.kind = .string then piece.compose else piece)
    (hcomposed : tok.kind = .string → tok.text.compose = tok.text) :
  tok.Reread
  := by
  refine ⟨?_, hcomposed⟩
  intro rest' hrest'
  by_cases hkind : tok.kind = .string
  · obtain ⟨body, rfl, hbody⟩ := hpiece.string_cases hkind
    obtain ⟨body', hcompose, hbody'⟩ := LawfulComposing.quoted hbody
    rw [htext, if_pos hkind, hcompose, hkind]
    exact .string hbody'.quote hbody'.line
  · rw [htext, if_neg hkind]
    apply hpiece.before_blank hrest'

theorem Token.Reread.scans {tok : Token} (h : tok.Reread) (file : FileId) (offset : Nat)
    {rest : Text} (hrest : Apart rest) :
  ∃ l, Scans file offset (tok.text ++ rest) [l] (offset + tok.text.length) rest
    ∧ (l.token.kind, l.token.text, l.problem) = (tok.kind, tok.text, none)
  := by
  have hpiece := h.piece rest hrest
  have htext : (if tok.kind = .string then tok.text.compose else tok.text) = tok.text :=
    ite_eq_right_iff.mpr h.composed
  exact ⟨_, .single (hpiece.startsToken.1.solid hrest) hpiece, by simp [Lexed.ofPiece, htext]⟩

/-- Tokens that are written with one blank between neighbours are read again. -/
theorem exists_scans_join (file : FileId) {ts : List Token} (hts : ∀ tok ∈ ts, tok.Reread)
    {rest : Text} (hrest : Apart rest) (offset : Nat) :
  ∃ ls stop, Scans file offset (Text.join " " (ts.map (·.text)) ++ rest) ls stop rest
    ∧ ls.map (fun l => (l.token.kind, l.token.text, l.problem))
      = ts.map fun tok => (tok.kind, tok.text, none)
  := by
  induction ts generalizing offset with
  | nil => exact ⟨[], offset, .done, rfl⟩
  | cons tok ts ih =>
      obtain ⟨htok, hts⟩ := List.forall_mem_cons.mp hts
      cases ts with
      | nil =>
          obtain ⟨l, hscans, hl⟩ := htok.scans file offset hrest
          exact ⟨[l], _, hscans, congrArg (· :: []) hl⟩
      | cons next ts =>
          have hblank := apart_blank (Text.join " " ((next :: ts).map (·.text)) ++ rest)
          obtain ⟨l, hscans, hl⟩ := htok.scans file offset hblank
          obtain ⟨ls, stop, hscans', hls⟩ := ih hts (offset + tok.text.length + 1)
          have hne : ls ≠ [] := by
            rintro rfl
            cases hls
          have hall := hscans.append (hscans'.blank rfl hne)
          refine ⟨l :: ls, stop, ?_, ?_⟩
          · have hblank : Text.ofString " " = [32] := rfl
            simpa [Text.join, hblank] using hall
          · rw [List.map_cons, hl, hls]
            rfl

/-! ### Files -/

/-- The tokens of a file without problems are read again, if composing changes its strings, which
are composed, no more. -/
theorem File.reread_lex [LawfulComposing] {f : File} (hlex : ∀ l ∈ f.lex, l.problem = none)
    (hcomposed : ∀ l ∈ f.lex, l.token.kind = .string → l.token.text.compose = l.token.text) :
  ∃ ts : List Token, f.lex.map (·.token) = ts ++ [(Lexed.ofEnd f.id f.content.length).token]
    ∧ ∀ tok ∈ ts, tok.Reread
  := by
  obtain ⟨ls, stop, gap, hscans, hgap⟩ := exists_scans f.id 0 f.content
  have hall := File.lex_of_scans hscans hgap
  rw [hall] at hlex hcomposed ⊢
  refine ⟨ls.map (·.token), by simp, ?_⟩
  intro tok htok
  obtain ⟨l, hl, rfl⟩ := List.mem_map.mp htok
  have hmem := List.mem_append_left [Lexed.ofEnd f.id f.content.length] hl
  have hproblem := hlex l hmem
  have hcomposed := hcomposed l hmem
  obtain ⟨start, kind, problem, piece, rest, rfl, hpiece⟩ := hscans.exists_piece hl
  obtain rfl : problem = none := hproblem
  exact Token.reread_of_piece hpiece rfl hcomposed

omit [Composing] in
/-- A text without newlines that does not begin with a byte-order mark needs no clean-up. -/
theorem File.cleanUp_eq_self {t : Text} (hline : 10 ∉ t) (hmark : t.head? ≠ some 0xEF) :
  File.cleanUp t = (t, false, false)
  := by
  apply cleanUp_of_clean
  constructor
  · exact fun hpair => hline (hpair.subset (.tail _ (.head _)))
  · rintro ⟨body, rfl⟩
    exact hmark rfl

omit [Composing] in
theorem newline_notMem_join {ts : List Text} (h : ∀ t ∈ ts, 10 ∉ t) :
  10 ∉ Text.join " " ts
  := by
  fun_induction Text.join with
  | case1 => simp
  | case2 t => simpa using h
  | case3 t rest hrest ih =>
      obtain ⟨ht, hts⟩ := List.forall_mem_cons.mp h
      have hblank : 10 ∉ Text.ofString " " := by decide
      simp [ht, hblank, ih hts]

/-- What is written of tokens that are read again needs no clean-up. -/
theorem cleanUp_join {ts : List Token} (hts : ∀ tok ∈ ts, tok.Reread) {gap : Text}
    (hgap : gap = [] ∨ gap = [32]) :
  File.cleanUp (Text.join " " (ts.map (·.text)) ++ gap)
    = (Text.join " " (ts.map (·.text)) ++ gap, false, false)
  := by
  have hstarts : ∀ tok ∈ ts, StartsToken tok.text ∧ 10 ∉ tok.text :=
    fun tok htok => ((hts tok htok).piece [] apart_nil).startsToken
  apply File.cleanUp_eq_self
  · rw [List.mem_append, not_or]
    constructor
    · apply newline_notMem_join
      rintro _ ht
      obtain ⟨tok, htok, rfl⟩ := List.mem_map.mp ht
      exact (hstarts tok htok).2
    · obtain rfl | rfl := hgap
      · apply List.not_mem_nil
      · decide
  · cases ts with
    | nil =>
        obtain rfl | rfl := hgap
        · exact nofun
        · exact fun h => absurd (Option.some.inj h) (by decide)
    | cons tok ts =>
        obtain ⟨⟨b, t, htext, -, hmark, -⟩, -⟩ := hstarts tok List.mem_cons_self
        have hhead : (Text.join " " ((tok :: ts).map (·.text)) ++ gap).head? = some b := by
          cases ts <;> simp [Text.join, htext]
        rw [hhead]
        exact fun h => hmark (Option.some.inj h)

omit [Composing] in
/-- Behind some texts an empty text makes a blank at most. -/
theorem exists_join_concat_nil (ts : List Text) :
  ∃ gap, Text.join " " (ts ++ [[]]) = Text.join " " ts ++ gap ∧ (gap = [] ∨ gap = [32])
  := by
  induction ts with
  | nil => exact ⟨[], rfl, .inl rfl⟩
  | cons t ts ih =>
      cases ts with
      | nil => exact ⟨[32], List.append_nil _, .inr rfl⟩
      | cons r ts =>
          obtain ⟨gap, hjoin, hgap⟩ := ih
          refine ⟨gap, ?_, hgap⟩
          simp only [List.cons_append, Text.join] at hjoin ⊢
          rw [hjoin, ← List.append_assoc]

/-- The tokens of a file without problems, written with one blank between neighbours, are read
again: the same kinds and the same texts come in the same order and there is no problem.  It does
not matter whether the end of the file, whose text is empty, is written too, and what is written
needs no clean-up.  Of composing it is assumed that it changes the strings of the file, which are
composed, no more. -/
theorem lex_join_lex [LawfulComposing] (f f' : File) (hlex : ∀ l ∈ f.lex, l.problem = none)
    (hcomposed : ∀ l ∈ f.lex, l.token.kind = .string → l.token.text.compose = l.token.text)
    (hcontent : f'.content = Text.join " " (f.lex.dropLast.map (·.token.text))
      ∨ f'.content = Text.join " " (f.lex.map (·.token.text))) :
  (∀ l ∈ f'.lex, l.problem = none)
    ∧ f'.lex.map (fun l => (l.token.kind, l.token.text))
      = f.lex.map (fun l => (l.token.kind, l.token.text))
    ∧ File.cleanUp f'.content = (f'.content, false, false)
  := by
  obtain ⟨ts, htokens, hts⟩ := File.reread_lex hlex hcomposed
  have hdropped : f.lex.dropLast.map (·.token) = ts := by
    rw [List.map_dropLast, htokens, List.dropLast_concat]
  obtain ⟨gap, hjoined, hgap⟩ : ∃ gap, f'.content = Text.join " " (ts.map (·.text)) ++ gap
      ∧ (gap = [] ∨ gap = [32]) := by
    obtain h | h := hcontent
    · exact ⟨[], by rw [h, ← hdropped, List.map_map, List.append_nil]; rfl, .inl rfl⟩
    · have htexts : f.lex.map (·.token.text) = ts.map (·.text) ++ [[]] := by
        have htexts := congrArg (List.map (·.text)) htokens
        rwa [List.map_map, List.map_append] at htexts
      obtain ⟨gap, hjoin, hgap⟩ := exists_join_concat_nil (ts.map (·.text))
      exact ⟨gap, by rw [h, htexts, hjoin], hgap⟩
  have hapart : Apart gap := by
    obtain rfl | rfl := hgap
    · exact apart_nil
    · apply apart_blank
  have htrivia : Trivia gap [] := by
    obtain rfl | rfl := hgap
    · exact .nil
    · exact .blank rfl .nil
  obtain ⟨ls, stop, hscans, hls⟩ := exists_scans_join f'.id hts hapart 0
  rw [← hjoined] at hscans
  rw [File.lex_of_scans hscans htrivia]
  refine ⟨?_, ?_, by rw [hjoined, cleanUp_join hts hgap]⟩
  · intro l hl
    obtain hl | hl := List.mem_append.mp hl
    · have hmem := List.mem_map_of_mem (f := fun l => (l.token.kind, l.token.text, l.problem)) hl
      rw [hls] at hmem
      obtain ⟨tok, -, heq⟩ := List.mem_map.mp hmem
      exact congrArg (·.2.2) heq.symm
    · rw [List.mem_singleton.mp hl]
      rfl
  · have hpairs := congrArg (List.map fun e => (e.1, e.2.1)) hls
    have htexts := congrArg (List.map fun tok => (tok.kind, tok.text)) htokens
    rw [List.map_map, List.map_map] at hpairs
    rw [List.map_map, List.map_append] at htexts
    rw [List.map_append]
    exact (congrArg (· ++ _) hpairs).trans htexts.symm

end

/-- A line where tokens touch, with a comment, and with two slashes in a string. -/
def packedLine : File := { content := "a<=-1;b=!c// <\n<d\x7b\"e // \"\x7d\r" }

/-- The tokens of `packedLine` with blanks between them. -/
def spacedLine : File := { id := 1, content := "a <= - 1 ; b = ! c < d \x7b \"e // \" \x7d " }

/-- The tokens of `packedLine` are read again from `spacedLine`. -/
theorem spacedLine_lex :
  (∀ l ∈ packedLine.lex, l.problem = none)
    ∧ (∀ l ∈ packedLine.lex, l.token.kind = .string → l.token.text.compose = l.token.text)
    ∧ spacedLine.content = Text.join " " (packedLine.lex.map (·.token.text))
    ∧ (∀ l ∈ spacedLine.lex, l.problem = none)
    ∧ spacedLine.lex.map (fun l => (l.token.kind, l.token.text))
      = packedLine.lex.map (fun l => (l.token.kind, l.token.text))
  := by
  have hlex : ∀ l ∈ packedLine.lex, l.problem = none := by decide +kernel
  have hcomposed : ∀ l ∈ packedLine.lex,
      l.token.kind = .string → l.token.text.compose = l.token.text := by decide +kernel
  have hcontent : spacedLine.content = Text.join " " (packedLine.lex.map (·.token.text)) := by
    decide +kernel
  obtain ⟨hproblems, hpairs, -⟩ :=
    lex_join_lex packedLine spacedLine hlex hcomposed (.inr hcontent)
  exact ⟨hlex, hcomposed, hcontent, hproblems, hpairs⟩

end ThreeAddress
