import ThreeAddress.Proofs.Syntax.Soundness
import ThreeAddress.Proofs.Token.Tiling

/-!
# The parser accepts exactly the programs of the grammar

A file is parsed without an error if and only if its tokens are a program of the grammar, and then
its tree is that program.  In particular the grammar is unambiguous.
-/

namespace ThreeAddress

open Grammar

/-- The tokens of a file up to its end. -/
def fileTokens (lexed : List Lexed) : List Token :=
  (lexed.map (·.token)).takeWhile (·.kind != .eof)

/-- The tokens of a file up to its end are those that are read from its content. -/
theorem File.fileTokens_lex [Composing] {f : File} {ls : List Lexed} {stop : Nat} {gap : Text}
    (h : Scans f.id 0 f.content ls stop gap) (hgap : Trivia gap []) :
  fileTokens f.lex = ls.map (·.token)
  := by
  have hkinds : ∀ tok ∈ ls.map (·.token), tok.kind != .eof := by
    intro tok htok
    obtain ⟨l, hl, rfl⟩ := List.mem_map.mp htok
    obtain ⟨_, _, _, _, _, rfl, hpiece⟩ := h.exists_piece hl
    exact bne_iff_ne.mpr hpiece.kind_class.2
  rw [fileTokens, File.lex_of_scans h hgap, List.map_append, List.takeWhile_append_of_pos hkinds]
  simp [Lexed.ofEnd]

namespace Parser

variable {o : ParseOptions} {file : FileId} {errors : Nat} {lexed : List Lexed}

/-- The state in which the parser starts. -/
def start (file : FileId) (errors : Nat) (lexed : List Lexed) : ParseState :=
  { rest := fileTokens lexed
    endSpan := (((lexed.map (·.token)).drop (fileTokens lexed).length).head?.map (·.span)).getD {}
    last := { file }
    errors }

theorem valid_start (h : ∀ tok ∈ fileTokens lexed, tok.kind ≠ .invalid) :
  Valid (start file errors lexed).rest
  := by
  intro tok htok
  use h tok htok
  have hall := List.all_eq_true.mp List.all_takeWhile tok htok
  simpa using hall

/-- Every error is reported once. -/
theorem parse_reports (hmax : o.maxErrors = 0) (hcancel : o.cancelled = false)
    (hsilent : o.silent = false) (h : ∀ tok ∈ fileTokens lexed, tok.kind ≠ .invalid) :
  (parse o file errors lexed).reports.length + errors = (parse o file errors lexed).errors
  := by
  have hsound := lists_below hcancel _ (start file errors lexed) .eof (Nat.lt_succ_self _)
    (valid_start h)
  have hsum := hsound.later.reports hmax hsilent
  apply hsum.trans (Nat.zero_add _)

/-- A parse that starts without errors is below every limit on errors. -/
theorem isEnough_start (o : ParseOptions) (file : FileId) (lexed : List Lexed) :
  (start file 0 lexed).isEnough o = false
  := by
  rw [ParseState.isEnough, ParseState.counter, start, Nat.zero_mod, Bool.and_eq_false_iff]
  cases hmax : o.maxErrors with
  | zero => exact .inl rfl
  | succ n => exact .inr rfl

/-- Below the limit on errors, a program of the grammar is parsed without an error. -/
theorem parse_of_notEnough {ss : List Stmt}
    (henough : (start file errors lexed).isEnough o = false) (hcancel : o.cancelled = false)
    (h : IsProgram (fileTokens lexed) ss) :
  (parse o file errors lexed).errors = errors ∧ (parse o file errors lexed).tree.statements = ss
  := by
  obtain ⟨ids, s', hlist, htakes, hreads⟩ := stmtList_of_isProgram henough hcancel h rfl
  have hids : ids = (stmtList o .eof (start file errors lexed)).val.1 := by rw [hlist]
  have hs' : s' = (stmtList o .eof (start file errors lexed)).val.2 := by rw [hlist]
  subst hids hs'
  constructor
  · apply htakes.errors
  · apply Tree.ReadsStmt.map_stmtTo_eq hreads _ (Nat.le_succ _)
    exact ⟨.refl _, .refl _⟩

theorem parse_of_isProgram {ss : List Stmt} (hmax : o.maxErrors = 0) (hcancel : o.cancelled = false)
    (h : IsProgram (fileTokens lexed) ss) :
  (parse o file errors lexed).errors = errors ∧ (parse o file errors lexed).tree.statements = ss
  := parse_of_notEnough (ParseState.isEnough_of_unlimited hmax _) hcancel h

/-- Whatever the limit, the tree of a parse without errors is a program that the tokens are. -/
theorem isProgram_of_parse (hcancel : o.cancelled = false)
    (h : ∀ tok ∈ fileTokens lexed, tok.kind ≠ .invalid)
    (herrors : (parse o file 0 lexed).errors = 0) :
  IsProgram (fileTokens lexed) (parse o file 0 lexed).tree.statements
  := by
  have henough := isEnough_start o file lexed
  obtain ⟨ss, hss⟩ := isProgram_of_errors_eq henough hcancel (valid_start h) herrors
  rw [(parse_of_notEnough henough hcancel hss).2]
  apply hss

/-- Tokens are at most one program. -/
theorem isProgram_unique {ss ss' : List Stmt} (h : IsProgram (fileTokens lexed) ss)
    (h' : IsProgram (fileTokens lexed) ss') :
  ss = ss'
  := by
  rw [← (@parse_of_isProgram {} 0 0 lexed ss rfl rfl h).2,
    (@parse_of_isProgram {} 0 0 lexed ss' rfl rfl h').2]

/-- Whatever the limit, parsing either makes no finding, and then the tree is a program that the
tokens are, or the tokens are no program and it makes syntax findings, of which the first is an
error. -/
theorem parse_cases (hcancel : o.cancelled = false) (hsilent : o.silent = false)
    (h : ∀ tok ∈ fileTokens lexed, tok.kind ≠ .invalid) :
  (parse o file 0 lexed).reports = []
      ∧ IsProgram (fileTokens lexed) (parse o file 0 lexed).tree.statements
    ∨ (∀ ss, ¬ IsProgram (fileTokens lexed) ss)
      ∧ (∀ r ∈ (parse o file 0 lexed).reports, Code.area? r.diagnostic.code.number = some "SYN")
      ∧ ∃ r rs, (parse o file 0 lexed).reports = r :: rs ∧ r.diagnostic.severity = .error
  := by
  have henough := isEnough_start o file lexed
  have hsound := lists_below hcancel _ (start file 0 lexed) .eof (Nat.lt_succ_self _)
    (valid_start h)
  have hreported : (listOut o .eof (start file 0 lexed)).2.Reported := by
    apply hsound.later.reported hsilent
    refine ⟨?_, .inl ⟨rfl, rfl⟩⟩
    intro r hr
    cases hr
  obtain ⟨herrors, hnone⟩ | ⟨hpos, r, rs, hsome, hr⟩ := hreported.first
  · left
    obtain ⟨ss, hss⟩ := isProgram_of_errors_eq henough hcancel (valid_start h) herrors
    constructor
    · apply congrArg Array.toList hnone
    · rw [(parse_of_notEnough henough hcancel hss).2]
      apply hss
  · right
    refine ⟨?_, hreported.codes, r, rs, hsome, hr⟩
    intro ss hss
    have herrors : (listOut o .eof (start file 0 lexed)).2.errors = 0 :=
      (parse_of_notEnough henough hcancel hss).1
    omega

end Parser

/-- For all tokens without an invalid one, parsing counts no error (and makes no finding) if and
only if the tokens are a program of the grammar, and then the tree is that program. -/
theorem parse_accepts_grammar (o : ParseOptions) (file : FileId) (errors : Nat)
    (lexed : List Lexed) (hmax : o.maxErrors = 0) (hcancel : o.cancelled = false)
    (hvalid : ∀ tok ∈ fileTokens lexed, tok.kind ≠ .invalid) :
  ((parse o file errors lexed).errors = errors ↔ ∃ ss, IsProgram (fileTokens lexed) ss)
    ∧ (o.silent = false →
      ((parse o file errors lexed).reports = [] ↔ ∃ ss, IsProgram (fileTokens lexed) ss))
    ∧ ∀ ss, IsProgram (fileTokens lexed) ss → (parse o file errors lexed).tree.statements = ss
  := by
  have haccepts : (parse o file errors lexed).errors = errors
      ↔ ∃ ss, IsProgram (fileTokens lexed) ss := by
    constructor
    · intro herrors
      apply Parser.isProgram_of_stmtList hmax hcancel (Parser.valid_start hvalid) herrors
    · rintro ⟨ss, hss⟩
      apply (Parser.parse_of_isProgram hmax hcancel hss).1
  refine ⟨haccepts, ?_, ?_⟩
  · intro hsilent
    have hsum := @Parser.parse_reports o file errors lexed hmax hcancel hsilent hvalid
    rw [← haccepts, ← List.length_eq_zero_iff]
    omega
  · intro ss hss
    apply (Parser.parse_of_isProgram hmax hcancel hss).2

/-- A token at no place in particular. -/
def placeless (kind : TokenKind) (text : Text) : Token := ⟨kind, {}, text⟩

/-- The tokens of `print a - b * c - d;`. -/
def mixedChain : List Lexed :=
  [placeless .kwPrint "print", placeless .ident "a", placeless .minus "-", placeless .ident "b",
    placeless .star "*", placeless .ident "c", placeless .minus "-", placeless .ident "d",
    placeless .semicolon ";", placeless .eof ""].map fun token => { token }

theorem parse_accepts_mixedChain :
  (∀ tok ∈ fileTokens mixedChain, tok.kind ≠ .invalid)
    ∧ (parse {} 0 0 mixedChain).errors = 0
    ∧ (parse {} 0 0 mixedChain).reports = []
    ∧ (parse {} 0 0 mixedChain).tree.statements
      = [.print {} (.binary {} .sub
          (.binary {} .sub (.ident {} "a") (.binary {} .mul (.ident {} "b") (.ident {} "c")))
          (.ident {} "d"))]
  := by
  have hident : ∀ name, Derives (.operand 7) [placeless .ident name] [.ident {} name] :=
    fun name => .ident rfl
  have hproduct : Derives (.operand 6)
      ([placeless .ident "b"] ++ placeless .star "*" :: [placeless .ident "c"]) [_] :=
    .binary .mul (hident "b").tighter (hident "c")
  have hleft : Derives (.operand 5) ([placeless .ident "a"] ++ placeless .minus "-" ::
      ([placeless .ident "b"] ++ placeless .star "*" :: [placeless .ident "c"])) [_] :=
    .binary .sub ((hident "a").of_le (by decide)) hproduct
  have hchain : Derives (.operand 5) (([placeless .ident "a"] ++ placeless .minus "-" ::
      ([placeless .ident "b"] ++ placeless .star "*" :: [placeless .ident "c"])) ++
      placeless .minus "-" :: [placeless .ident "d"]) [_] :=
    .binary .sub hleft (hident "d").tighter
  have hsemi : Semicolon [placeless .semicolon ";"] [] := .inl ⟨_, rfl, rfl⟩
  have hprogram : IsProgram (fileTokens mixedChain) [.print {} (.binary {} .sub
      (.binary {} .sub (.ident {} "a") (.binary {} .mul (.ident {} "b") (.ident {} "c")))
      (.ident {} "d"))] :=
    .print rfl rfl (hchain.of_le (by decide))
      (Parser.endsAt_zero.mp (.of_next rfl (by decide) rfl)) hsemi
  have hvalid : ∀ tok ∈ fileTokens mixedChain, tok.kind ≠ .invalid := by decide
  have haccepts := parse_accepts_grammar {} 0 0 mixedChain rfl rfl hvalid
  refine ⟨hvalid, haccepts.1.mpr ⟨_, hprogram⟩, ?_, haccepts.2.2 _ hprogram⟩
  apply (haccepts.2.1 rfl).mpr ⟨_, hprogram⟩

end ThreeAddress
