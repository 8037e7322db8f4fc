import Mathlib
import ThreeAddress.Proofs.Syntax.MirroredParsers

/-!
# The limit on syntax errors is exact

A parse with a limit on errors reports as many of the errors that it finds as there is room for, and
then once that it stops.  What it finds is what a parse without a limit finds that is cancelled
before the same statement.  This is so as long as the errors that are counted fit into a word; when
the counter wraps around there is room again.
-/

namespace ThreeAddress

/-! ### What is reported -/

section

variable {room : Nat} {found : List Report}

theorem reported_of_lt (h : found.length < room) :
  reported room found = found
  := by
  rw [reported, if_neg (Nat.not_le.mpr h), List.append_nil, List.take_of_length_le (Nat.le_of_lt h)]

theorem reported_zero (found : List Report) :
  reported 0 found = []
  := by
  simp [reported]

/-- Where the room is used up, the last finding in it is followed by the remark. -/
theorem exists_reported_of_le (hroom : 0 < room) (h : room ≤ found.length) :
  ∃ last, found[room - 1]? = some last ∧ reported room found = found.take room ++ [last.stopping]
  := by
  have hlast : room - 1 < found.length := by omega
  refine ⟨found[room - 1], List.getElem?_eq_getElem hlast, ?_⟩
  have hend : (found.take room).getLast? = some found[room - 1] := by
    rw [List.getLast?_take, if_neg (Nat.ne_of_gt hroom), List.getElem?_eq_getElem hlast]
    rfl
  rw [reported, if_pos h, hend]
  rfl

/-- No more errors are reported than there is room for. -/
theorem countP_reported_le (room : Nat) (found : List Report) :
  (reported room found).countP (·.diagnostic.severity == .error) ≤ room
  := by
  have hremark : ∀ last : Option Report,
      ((last.map Report.stopping).toList).countP (·.diagnostic.severity == .error) = 0 := by
    rintro (_ | last) <;> rfl
  have htake := List.countP_le_length (p := (·.diagnostic.severity == .error)) (l := found.take room)
  have hlength := List.length_take_le room found
  rw [reported, List.countP_append]
  split
  · rw [hremark]
    omega
  · rw [List.countP_nil]
    omega

end

namespace Parser

variable {o : ParseOptions} {c : Nat}

theorem reflects_start (o : ParseOptions) (file : FileId) (c : Nat) (lexed : List Lexed) :
  Reflects o c (start file c lexed) (start file c lexed)
  := by
  refine ⟨.refl _, rfl, rfl, nofun, fun _ _ => ?_⟩
  simp [start, reported]

theorem errors_skipAll (s : ParseState) :
  (skipAll s).val.errors = s.errors
  := by
  induction hs : s.rest generalizing s with
  | nil => rw [skipAll_nil hs]
  | cons tok rest ih =>
      rw [skipAll_cons hs, ih (s.advance tok rest) rfl]
      rfl

/-- A parse that begins at its limit gives up at once. -/
theorem parse_errors_of_full (file : FileId) (lexed : List Lexed) (hmax : 0 < o.maxErrors)
    (hword : c < Word.count) (hfull : o.maxErrors ≤ c) :
  (parse o file c lexed).errors = c
  := by
  change (stmtList o .eof (start file c lexed)).val.2.errors = c
  by_cases hend : (start file c lexed).rest = [] ∨ (start file c lexed).isAt .eof
  · rw [stmtList_end hend]
    rfl
  · obtain ⟨hrest, hstop⟩ := not_or.mp hend
    have henough : (start file c lexed).isEnough o = true := by
      simp [ParseState.isEnough, ParseState.counter, start, Nat.mod_eq_of_lt hword,
        Nat.ne_of_gt hmax, hfull]
    rw [stmtList_enough henough hrest (by simpa using hstop), errors_skipAll]
    rfl

/-- In a parse that reports everything and gives up before the same statements, the same is
found. -/
theorem reflects_parse (file : FileId) (c : Nat) (lexed : List Lexed) (hmax : 0 < o.maxErrors) :
  ∃ checks : List Check,
    (checks.Pairwise fun e e' => e.taken < e'.taken ∧ e.stops = false)
      ∧ (∀ e ∈ checks, e.stops = true →
          o.cancelledAt e.taken = true ∨ o.maxErrors ≤ (parse o file c lexed).errors)
      ∧ (∀ e ∈ checks, e.stops = false → o.cancelledAt e.taken = false)
      ∧ ∀ o' : ParseOptions, o'.Open → o'.Decides checks →
          (parse o file c lexed).tree = (parse o' file c lexed).tree
            ∧ (parse o file c lexed).errors = c + (parse o' file c lexed).reports.length
            ∧ (∀ r ∈ (parse o' file c lexed).reports, r.diagnostic.severity = .error)
            ∧ (o.silent = false → (parse o file c lexed).errors < Word.count →
                (parse o file c lexed).reports
                  = reported (o.maxErrors - c) (parse o' file c lexed).reports)
  := by
  obtain ⟨checks, hway, hmirror⟩ := listOut_mirrored hmax c .eof (start file c lexed)
  refine ⟨checks, hway.ordered, fun e he hstops => (hway.stopped e he hstops).2, hway.passed, ?_⟩
  intro o' ho hdecides
  obtain ⟨hvalue, hstate⟩ := hmirror o' _ ho hdecides (reflects_start o file c lexed)
  have hprogram : (stmtList o' .eof (start file c lexed)).val.1
      = (stmtList o .eof (start file c lexed)).val.1 := Option.some.inj hvalue
  have htree : (stmtList o' .eof (start file c lexed)).val.2.tree
      = (stmtList o .eof (start file c lexed)).val.2.tree := hstate.alike.tree
  have hlast : (stmtList o' .eof (start file c lexed)).val.2.last
      = (stmtList o .eof (start file c lexed)).val.2.last := hstate.alike.last
  have hparsed : ∀ o, (parse o file c lexed).tree =
      { (stmtList o .eof (start file c lexed)).val.2.tree with
        span := (start file c lexed).peek.span.cover (stmtList o .eof (start file c lexed)).val.2.last
        program := (stmtList o .eof (start file c lexed)).val.1 } := fun _ => rfl
  refine ⟨?_, hstate.errors.symm.trans hstate.counted, hstate.severities, hstate.reports⟩
  rw [hparsed, hparsed, hprogram, htree, hlast]

end Parser

/-- The limit on syntax errors is exact as long as the counter of errors does not wrap around.

Let `found` be what a parse without a limit finds that is cancelled where this one gives up; the
trees of both are the same, and the errors that are counted are those that were counted before and
those that are found, whether they are reported or not.  If there is no room for an error nothing is
found and nothing is reported.

Let all errors counted fit into a word.  Then the counter ends with their number.  As long as the
limit is not reached all that is found is reported, and it is what is found without a limit.  If
there is room for some errors and it is used up, so many are reported and right after the last one a
remark, and then nothing. -/
theorem parse_limit_exact (o : ParseOptions) (file : FileId) (c : Nat) (lexed : List Lexed)
    (hmax : 0 < o.maxErrors) (hword : c < Word.count) :
  ∃ found : List Report,
    (∃ moment,
        found = (parse { cancelled := true, cancelledAfter := moment } file c lexed).reports
          ∧ (parse o file c lexed).tree
            = (parse { cancelled := true, cancelledAfter := moment } file c lexed).tree)
      ∧ (∀ r ∈ found, r.diagnostic.severity = .error)
      ∧ (parse o file c lexed).errors = c + found.length
      ∧ (o.maxErrors ≤ c →
          found = [] ∧ (o.silent = false → (parse o file c lexed).reports = []))
      ∧ (c + found.length < Word.count →
        (parse o file c lexed).counter = c + found.length
          ∧ (o.silent = false →
            (found.length < o.maxErrors - c → (parse o file c lexed).reports = found
                ∧ found = (parse { o with maxErrors := 0 } file c lexed).reports)
              ∧ (0 < o.maxErrors - c → o.maxErrors - c ≤ found.length →
                ∃ last, found[o.maxErrors - c - 1]? = some last
                  ∧ (parse o file c lexed).reports
                    = found.take (o.maxErrors - c) ++ [last.stopping])
              ∧ (parse o file c lexed).reports.countP (·.diagnostic.severity == .error)
                ≤ o.maxErrors - c))
  := by
  obtain ⟨checks, hordered, hstopped, hpassed, hreflects⟩ :=
    Parser.reflects_parse file c lexed hmax
  obtain ⟨moment, hmoment⟩ := exists_decides hordered
  obtain ⟨htree, herrors, hseverities, hreports⟩ := hreflects _ ⟨rfl, rfl⟩ hmoment
  refine ⟨_, ⟨moment, rfl, htree⟩, hseverities, herrors, ?_, fun hfits => ⟨?_, fun hsilent => ?_⟩⟩
  · intro hfull
    have hcount := Parser.parse_errors_of_full file lexed hmax hword hfull
    constructor
    · apply List.length_eq_zero_iff.mp
      omega
    · intro hsilent
      rw [hreports hsilent (by omega), Nat.sub_eq_zero_of_le hfull, reported_zero]
  · rw [ParseResult.counter, herrors, Nat.mod_eq_of_lt hfits]
  · have hreports := hreports hsilent (by omega)
    refine ⟨?_, ?_, ?_⟩
    · intro hroom
      rw [hreports, reported_of_lt hroom]
      -- the limit stops nothing, so a parse without it gives up before the same statements
      have hdecides : ParseOptions.Decides { o with maxErrors := 0 } checks := by
        intro e he
        cases hstops : e.stops with
        | true => exact (hstopped e he hstops).resolve_right (by omega)
        | false => exact hpassed e he hstops
      obtain ⟨-, herrors', -, hreports'⟩ :=
        hreflects { o with maxErrors := 0 } ⟨rfl, hsilent⟩ hdecides
      have hreports' := hreports' hsilent (by omega)
      rw [reported_of_lt (by omega)] at hreports'
      refine ⟨rfl, ?_⟩
      rw [← hreports', hreports, reported_of_lt hroom]
    · intro hpos hroom
      rw [hreports]
      exact exists_reported_of_le hpos hroom
    · rw [hreports]
      apply countP_reported_le

/-- Four declarations without a name, the last three of them in a block that is not closed. -/
def unclosedBlock : File := { content := "let = 1; if (a) \x7b let = 2; let = 3; let = 4;" }

/-- With room for two errors, two declarations of `unclosedBlock` are reported.  The block is left,
which is an error that counts but is not reported. -/
theorem limited_unclosedBlock :
  (parse { maxErrors := 3 } 0 1 unclosedBlock.lex).errors = 4
    ∧ ∃ (found : List Report) (last : Report), found.length = 3 ∧ found[1]? = some last
      ∧ (parse { maxErrors := 3 } 0 1 unclosedBlock.lex).reports
        = found.take 2 ++ [last.stopping]
  := by
  have hcount : (parse { maxErrors := 3 } 0 1 unclosedBlock.lex).errors = 4 := by
    cbv
  obtain ⟨found, -, -, herrors, -, hreported⟩ :=
    parse_limit_exact { maxErrors := 3 } 0 1 unclosedBlock.lex (by decide) (by decide)
  have hlength : found.length = 3 := by omega
  obtain ⟨-, hreported⟩ := hreported (by rw [hlength]; decide)
  obtain ⟨-, hreported, -⟩ := hreported rfl
  obtain ⟨last, hlast, hreports⟩ := hreported (by decide) (by rw [hlength]; decide)
  exact ⟨hcount, found, last, hlength, hlast, hreports⟩

/-- A declaration without a name in a block that is not closed. -/
def cutBlock : File := { content := "if (a) \x7b let = 1;" }

/-- At the end of the words that can count errors, the second error of `cutBlock` makes the counter
wrap around.  Both errors are reported, although there is room for one. -/
theorem wrappedCounter_reports_beyond_limit :
  (parse { maxErrors := Word.count - 1 } 0 (Word.count - 2) cutBlock.lex).counter = 0
    ∧ (parse { maxErrors := Word.count - 1 } 0 (Word.count - 2) cutBlock.lex).reports.map
      (·.diagnostic.severity) = [.error, .info, .error]
  := by
  cbv

end ThreeAddress
