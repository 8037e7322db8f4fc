import ThreeAddress.Proofs.Syntax.SpanNesting

/-!
# Lists of statements, round by round

A list of statements is read in rounds.  A round gives up and skips all tokens, or reads a
statement, or recovers from one that does not parse.  Every round takes a token: a statement that
parses takes one, and recovering skips one where the statement that failed took none.  So there are
no more rounds than tokens, and a file is read to its end, whatever its tokens are.

Whether a statement took a token is told by counting tokens here.  It can also be told by where the
next token stands, as long as no two tokens stand in the same place.
-/

namespace ThreeAddress

theorem Builds.taken_add_left {o : ParseOptions} {s s' : ParseState} {made : List NodeRef}
    {spans : List Span} (h : Builds o s made spans s') :
  s'.taken + s'.left = s.taken + s.left
  := by
  induction h with
  | nothing => rfl
  | @take s tok rest hs =>
      rw [ParseState.left, ParseState.left, hs, List.length_cons]
      change s.taken + 1 + rest.length = _
      omega
  | @report s p opened =>
      obtain ⟨errors, reports, heq⟩ := ParseState.report_eq o s p opened
      rw [heq]
      rfl
  | append _ _ ih ih' => rw [ih', ih]
  | forget _ ih => exact ih
  | expr _ _ _ _ _ ih => exact ih
  | stmt _ _ _ _ _ ih => exact ih

/-- From `s` to `s'` the tokens `ts` are taken. -/
structure ParseState.Takes (s : ParseState) (ts : List Token) (s' : ParseState) : Prop where
  rest : s.rest = ts ++ s'.rest
  taken : s'.taken = s.taken + ts.length

namespace ParseState.Takes

variable {s s' s₂ : ParseState} {ts ts' : List Token}

theorem nothing (s : ParseState) :
  s.Takes [] s
  := ⟨rfl, rfl⟩

theorem append (h : s.Takes ts s') (h' : s'.Takes ts' s₂) :
  s.Takes (ts ++ ts') s₂
  := by
  constructor
  · rw [h.rest, h'.rest, List.append_assoc]
  · rw [h'.taken, h.taken, List.length_append, Nat.add_assoc]

theorem of_builds {o : ParseOptions} {made : List NodeRef} {spans : List Span}
    (h : Builds o s made spans s') :
  ∃ ts, s.Takes ts s'
  := by
  obtain ⟨ts, hrest, -⟩ := h.takes
  have hsum := h.taken_add_left
  rw [left, left, hrest, List.length_append] at hsum
  exact ⟨ts, hrest, by omega⟩

theorem left_eq (h : s.Takes ts s') :
  s.left = ts.length + s'.left
  := by
  rw [left, h.rest, List.length_append]
  rfl

theorem ne_nil (h : s.Takes ts s') (hlt : s'.left < s.left) :
  ts ≠ []
  := by
  have hleft := h.left_eq
  rintro rfl
  rw [List.length_nil] at hleft
  omega

end ParseState.Takes

namespace Parser

variable {o : ParseOptions} {stop : TokenKind} {s s' : ParseState}

/-! ### Rounds -/

/-- One round of a list of statements with the statements that it adds: the list gives up, or the
next statement parses, or it fails after taking tokens, or it fails and takes none. -/
inductive Round (o : ParseOptions) (s : ParseState) : List StmtId → ParseState → Prop
  | stopped (hstop : givesUp o s) : Round o s [] (skipAll s).val
  | parsed {id : StmtId} {s' : ParseState} (hgo : givesUp o s = false)
    (h : (stmt o s).out = (some id, s')) :
    Round o s [id] s'
  | failed {s' : ParseState} (hgo : givesUp o s = false) (h : (stmt o s).out = (none, s'))
    (hlt : s'.left < s.left) :
    Round o s [] (skipToBoundary s').val
  | stuck {s' : ParseState} {tok : Token} {rest : List Token} (hgo : givesUp o s = false)
    (h : (stmt o s).out = (none, s')) (hs : s.rest = tok :: rest) (hs' : s'.rest = tok :: rest) :
    Round o s [] (skipToBoundary (s'.advance tok rest)).val

theorem rest_skipAll (s : ParseState) :
  (skipAll s).val.rest = []
  := by
  fun_induction skipAll s with
  | case1 s h => exact List.length_eq_zero_iff.mp (ParseState.left_eq_zero_of_next? h)
  | case2 _ _ _ _ _ _ ih => exact ih

theorem takes_skipAll (s : ParseState) :
  s.Takes s.rest (skipAll s).val
  := by
  obtain ⟨spans, hbuilds⟩ := builds_skipAll (o := {}) s
  obtain ⟨ts, htakes⟩ := ParseState.Takes.of_builds hbuilds
  have hts := htakes.rest
  rw [rest_skipAll, List.append_nil] at hts
  rw [hts]
  exact htakes

theorem takes_skipToBoundary (s : ParseState) :
  ∃ ts, s.Takes ts (skipToBoundary s).val
  := by
  obtain ⟨spans, hbuilds⟩ := builds_skipToBoundary (o := {}) s
  exact ParseState.Takes.of_builds hbuilds

/-- Whether a statement parses or not, it only takes tokens. -/
theorem takes_stmt (hrest : s.rest ≠ []) {r : Option StmtId} (h : (stmt o s).out = (r, s')) :
  ∃ ts, s.Takes ts s'
  := by
  obtain ⟨tok, rest, hs⟩ := List.exists_cons_of_ne_nil hrest
  have hstmt := stmt_produces (lists_build_below o s.left) hs
  rw [h] at hstmt
  obtain ⟨hbuilds, -⟩ | hbuilds := hstmt
  · exact ParseState.Takes.of_builds hbuilds
  · exact ParseState.Takes.of_builds hbuilds

/-- Every round takes a token. -/
theorem Round.takes {ids : List StmtId} (h : Round o s ids s') (hrest : s.rest ≠ []) :
  ∃ ts, ts ≠ [] ∧ s.Takes ts s'
  := by
  cases h with
  | stopped => exact ⟨s.rest, hrest, takes_skipAll s⟩
  | parsed _ h =>
      obtain ⟨ts, htakes⟩ := takes_stmt hrest h
      exact ⟨ts, htakes.ne_nil (Parsed.lt_of_out h), htakes⟩
  | failed _ h hlt =>
      obtain ⟨ts, htakes⟩ := takes_stmt hrest h
      obtain ⟨ts', htakes'⟩ := takes_skipToBoundary _
      exact ⟨ts ++ ts', List.append_ne_nil_of_left_ne_nil (htakes.ne_nil hlt) ts',
        htakes.append htakes'⟩
  | @stuck s' tok rest _ h hs hs' =>
      obtain ⟨ts, htakes⟩ := takes_stmt hrest h
      have hone : s'.Takes [tok] (s'.advance tok rest) := ⟨hs', rfl⟩
      obtain ⟨ts', htakes'⟩ := takes_skipToBoundary (s'.advance tok rest)
      exact ⟨_, by simp, (htakes.append hone).append htakes'⟩

/-- After a statement that took tokens everything up to a boundary is skipped. -/
theorem resync_of_lt (hlt : s'.left < s.left) (hle : s'.left ≤ s.left) (hpos : 0 < s.left) :
  (resync s s' hle hpos).val = (skipToBoundary s').val
  := by
  have hstuck : (skipStuck s s' hle hpos).val = s' := by
    rw [skipStuck, dif_pos hlt]
  rw [resync]
  dsimp only
  rw [hstuck]

/-- After a statement that took no token the next one is skipped first. -/
theorem resync_of_not_lt {tok : Token} {rest : List Token} (hlt : ¬ s'.left < s.left)
    (hs' : s'.rest = tok :: rest) (hle : s'.left ≤ s.left) (hpos : 0 < s.left) :
  (resync s s' hle hpos).val = (skipToBoundary (s'.advance tok rest)).val
  := by
  have hstuck : (skipStuck s s' hle hpos).val = s'.advance tok rest := by
    unfold skipStuck
    rw [dif_neg hlt]
    split
    · next hnext =>
      rw [ParseState.next?_cons hs'] at hnext
      cases hnext
      rfl
    · next hnext =>
      rw [ParseState.next?_cons hs'] at hnext
      cases hnext
  rw [resync]
  dsimp only
  rw [hstuck]

/-- A statement that fails took tokens, or the same tokens are left as before. -/
theorem stmt_failed_cases (hrest : s.rest ≠ []) (h : (stmt o s).out = (none, s')) :
  s'.left < s.left ∨ ¬ s'.left < s.left ∧ s'.rest = s.rest
  := by
  obtain ⟨ts, htakes⟩ := takes_stmt hrest h
  have hleft := htakes.left_eq
  cases ts with
  | nil => exact .inr ⟨by rw [hleft, List.length_nil]; omega, htakes.rest.symm⟩
  | cons tok ts => exact .inl (by rw [hleft, List.length_cons]; omega)

theorem exists_round (o : ParseOptions) (hrest : s.rest ≠ []) :
  ∃ ids s', Round o s ids s'
  := by
  cases hgo : givesUp o s with
  | true => exact ⟨_, _, .stopped hgo⟩
  | false =>
      rcases hout : (stmt o s).out with ⟨_ | id, s'⟩
      · obtain hlt | ⟨-, hsame⟩ := stmt_failed_cases hrest hout
        · exact ⟨_, _, .failed hgo hout hlt⟩
        · obtain ⟨tok, rest, hs⟩ := List.exists_cons_of_ne_nil hrest
          exact ⟨_, _, .stuck hgo hout hs (hsame.trans hs)⟩
      · exact ⟨_, _, .parsed hgo hout⟩

/-- Before its end a list of statements makes a round and goes on. -/
theorem stmtList_of_round {ids : List StmtId} (h : Round o s ids s') (hrest : s.rest ≠ [])
    (hstop : s.isAt stop = false) :
  (stmtList o stop s).val = (ids ++ (stmtList o stop s').val.1, (stmtList o stop s').val.2)
  := by
  cases h with
  | stopped hgo =>
      rw [stmtList_end (.inl (rest_skipAll s)), stmtList_stopped hgo hrest hstop]
      rfl
  | parsed hgo hout => exact stmtList_parsed hgo hrest hstop hout
  | failed hgo hout hlt =>
      obtain ⟨le, pos, hlist⟩ := stmtList_failed hgo hrest hstop hout
      rw [hlist, resync_of_lt hlt]
      rfl
  | @stuck s' tok rest hgo hout hs hs' =>
      have hsame : ¬ s'.left < s.left := by
        rw [ParseState.left, ParseState.left, hs, hs']
        apply Nat.lt_irrefl
      obtain ⟨le, pos, hlist⟩ := stmtList_failed hgo hrest hstop hout
      rw [hlist, resync_of_not_lt hsame hs']
      rfl

/-! ### All rounds -/

/-- The rounds of a list of statements up to its end, with their number. -/
inductive Rounds (o : ParseOptions) (stop : TokenKind) :
    Nat → ParseState → List StmtId → ParseState → Prop
  | done {s : ParseState} (h : s.rest = [] ∨ s.isAt stop) : Rounds o stop 0 s [] s
  | next {n : Nat} {s s' s₂ : ParseState} {ids ids' : List StmtId} (hrest : s.rest ≠ [])
    (hstop : s.isAt stop = false) (h : Round o s ids s') (h' : Rounds o stop n s' ids' s₂) :
    Rounds o stop (n + 1) s (ids ++ ids') s₂

/-- A list of statements is read in rounds. -/
theorem rounds_stmtList (o : ParseOptions) (stop : TokenKind) (s : ParseState) :
  ∃ n, Rounds o stop n s (stmtList o stop s).val.1 (stmtList o stop s).val.2
  := by
  have hbelow : ∀ left (s : ParseState), s.left < left →
      ∃ n, Rounds o stop n s (stmtList o stop s).val.1 (stmtList o stop s).val.2 := by
    intro left
    induction left with
    | zero => exact fun s hlt => absurd hlt (Nat.not_lt_zero _)
    | succ left ih =>
        intro s hlt
        by_cases hend : s.rest = [] ∨ s.isAt stop
        · rw [stmtList_end hend]
          exact ⟨0, .done hend⟩
        · obtain ⟨hrest, hstop⟩ := not_or.mp hend
          rw [Bool.not_eq_true] at hstop
          obtain ⟨ids, s', hround⟩ := exists_round o hrest
          obtain ⟨ts, hne, htakes⟩ := hround.takes hrest
          have hpos := List.length_pos_iff.mpr hne
          have hleft := htakes.left_eq
          obtain ⟨n, hrounds⟩ := ih s' (by omega)
          rw [stmtList_of_round hround hrest hstop]
          exact ⟨n + 1, .next hrest hstop hround hrounds⟩
  apply hbelow _ s (Nat.lt_succ_self _)

/-- There are no more rounds than tokens that are taken. -/
theorem Rounds.takes {n : Nat} {ids : List StmtId} (h : Rounds o stop n s ids s') :
  ∃ ts, n ≤ ts.length ∧ s.Takes ts s'
  := by
  induction h with
  | done => exact ⟨[], Nat.le_refl 0, .nothing _⟩
  | next hrest _ hround _ ih =>
      obtain ⟨ts, hne, htakes⟩ := hround.takes hrest
      obtain ⟨ts', hn, htakes'⟩ := ih
      have hpos := List.length_pos_iff.mpr hne
      refine ⟨ts ++ ts', ?_, htakes.append htakes'⟩
      rw [List.length_append]
      omega

theorem Rounds.ends {n : Nat} {ids : List StmtId} (h : Rounds o stop n s ids s') :
  s'.rest = [] ∨ s'.isAt stop
  := by
  induction h with
  | done h => exact h
  | next _ _ _ _ ih => exact ih

/-- Where no token is an end, the rounds up to the end take all tokens. -/
theorem Rounds.rest_eq_nil {n : Nat} {ids : List StmtId} (h : Rounds o .eof n s ids s')
    (hs : ∀ tok ∈ s.rest, tok.kind ≠ .eof) :
  s'.rest = []
  := by
  obtain hend | hend := h.ends
  · exact hend
  · obtain ⟨ts, -, htakes⟩ := h.takes
    cases hrest : s'.rest with
    | nil => rfl
    | cons tok rest =>
        have hmem : tok ∈ s.rest := by
          rw [htakes.rest, hrest]
          simp
        rw [ParseState.isAt_of_ne hrest (hs tok hmem)] at hend
        cases hend

/-! ### Recovering by places -/

/-- Recovers after a statement that failed: if the next token stands where the statement began, it
is skipped, and then everything up to a boundary. -/
def recover (failedAt : Span) (s : ParseState) : ParseState :=
  match s.rest with
  | [] => s
  | tok :: rest =>
    if tok.span = failedAt then (skipToBoundary (s.advance tok rest)).val
    else (skipToBoundary s).val

/-- A token is skipped at least where the statement took none. -/
theorem recover_left_lt (hrest : s.rest ≠ []) (h : (stmt o s).out = (none, s')) :
  (recover s.peek.span s').left < s.left
  := by
  obtain ⟨ts, htakes⟩ := takes_stmt hrest h
  have hleft := htakes.left_eq
  rw [recover]
  split
  · next hs' =>
    have hpos := List.length_pos_iff.mpr hrest
    rw [ParseState.left, hs']
    exact hpos
  · next tok rest hs' =>
    have hadvance := ParseState.left_advance_lt hs'
    split
    · obtain ⟨ts', htakes'⟩ := takes_skipToBoundary (s'.advance tok rest)
      have hleft' := htakes'.left_eq
      omega
    · next hne =>
      obtain ⟨ts', htakes'⟩ := takes_skipToBoundary s'
      have hleft' := htakes'.left_eq
      have hpos : 0 < ts.length := by
        apply List.length_pos_iff.mpr
        rintro rfl
        rw [ParseState.peek_cons (htakes.rest.trans hs')] at hne
        contradiction
      omega

/-- Where no two tokens stand in the same place, recovering by places is what a round does. -/
theorem round_recover (hrest : s.rest ≠ []) (hgo : givesUp o s = false)
    (h : (stmt o s).out = (none, s')) (hspans : (s.rest.map (·.span)).Nodup) :
  Round o s [] (recover s.peek.span s')
  := by
  obtain ⟨ts, htakes⟩ := takes_stmt hrest h
  have hleft := htakes.left_eq
  have hpos := List.length_pos_iff.mpr hrest
  cases hs' : s'.rest with
  | nil =>
      have hlt : s'.left < s.left := by
        rw [ParseState.left, hs']
        exact hpos
      have hskip : (skipToBoundary s').val = recover s.peek.span s' := by
        rw [recover, hs', skipToBoundary_nil hs']
      rw [← hskip]
      exact .failed hgo h hlt
  | cons tok rest =>
      rw [recover, hs']
      dsimp only
      cases ts with
      | nil =>
          have hs : s.rest = tok :: rest := htakes.rest.trans hs'
          rw [if_pos (by rw [ParseState.peek_cons hs])]
          exact .stuck hgo h hs hs'
      | cons first ts =>
          have hs : s.rest = first :: (ts ++ tok :: rest) := by
            rw [htakes.rest, hs', List.cons_append]
          have hne : ¬ tok.span = s.peek.span := by
            rw [ParseState.peek_cons hs]
            rw [hs, List.map_cons, List.nodup_cons] at hspans
            intro heq
            apply hspans.1
            rw [← heq]
            exact List.mem_map_of_mem (by simp)
          rw [if_neg hne]
          exact .failed hgo h (by rw [hleft, List.length_cons]; omega)

/-- The tokens of a file stand in different places. -/
theorem nodup_span_fileTokens [Composing] (f : File) (hsize : f.content.length < UInt32.size) :
  ((fileTokens f.lex).map (·.span)).Nodup
  := by
  have hspread := f.spread_fileTokens hsize
  apply hspread.pairwise.imp_of_mem
  rintro a b ha - hle rfl
  exact UInt32.not_lt.mpr hle (hspread.of_mem ha).2.2.1

/-- Parsing makes progress and ends, for all tokens, limits, reporters and moments of cancelling.

A parse of a file is made of rounds, no more than there are tokens, and ends where all tokens are
taken.  Lists of statements anywhere in it are made of rounds too.  Every round takes a token,
whether the list gives up, a statement parses, or a statement fails, be it after some tokens or on
its first one.  This is so too if recovering looks at where the next token stands, and as long as no
two tokens stand in the same place, as in a file, both recover alike. -/
theorem parse_progresses [Composing] (o : ParseOptions) (file : FileId) (errors : Nat)
    (lexed : List Lexed) :
  (∃ n ids s', Rounds o .eof n (start file errors lexed) ids s'
      ∧ n ≤ (fileTokens lexed).length
      ∧ s'.rest = [] ∧ s'.taken = (fileTokens lexed).length
      ∧ (parse o file errors lexed).tree.program = ids
      ∧ (parse o file errors lexed).errors = s'.errors
      ∧ (parse o file errors lexed).reports = s'.reports.toList)
    ∧ (∀ stop s, ∃ n, Rounds o stop n s (stmtList o stop s).val.1 (stmtList o stop s).val.2)
    ∧ (∀ s ids s', s.rest ≠ [] → Round o s ids s' → ∃ ts, ts ≠ [] ∧ s.Takes ts s')
    ∧ (∀ s s', s.rest ≠ [] → (stmt o s).out = (none, s') →
        (recover s.peek.span s').left < s.left
          ∧ ((s.rest.map (·.span)).Nodup → givesUp o s = false →
              Round o s [] (recover s.peek.span s')))
    ∧ ∀ f : File, f.content.length < UInt32.size → ((fileTokens f.lex).map (·.span)).Nodup
  := by
  refine ⟨?_, rounds_stmtList o, fun s ids s' hrest h => h.takes hrest, ?_, nodup_span_fileTokens⟩
  · obtain ⟨n, hrounds⟩ := rounds_stmtList o .eof (start file errors lexed)
    have hkinds : ∀ tok ∈ (start file errors lexed).rest, tok.kind ≠ .eof := by
      intro tok htok
      have hall := List.all_eq_true.mp List.all_takeWhile tok htok
      simpa using hall
    have hrest := hrounds.rest_eq_nil hkinds
    obtain ⟨ts, hn, htakes⟩ := hrounds.takes
    have hts : fileTokens lexed = ts := by
      have htokens := htakes.rest
      rw [hrest, List.append_nil] at htokens
      exact htokens
    rw [hts]
    exact ⟨n, _, _, hrounds, hn, hrest, htakes.taken.trans (Nat.zero_add _), rfl, rfl, rfl⟩
  · intro s s' hrest h
    exact ⟨recover_left_lt hrest h, fun hspans hgo => round_recover hrest hgo h hspans⟩

end Parser

end ThreeAddress
