import Mathlib.Data.List.GetD
import Mathlib.Logic.Function.Iterate
import ThreeAddress.Proofs.Token.Tiling
import ThreeAddress.Text.Compose
import ThreeAddress.Token.Session

/-!
# Looking ahead

Behind the last token of a file its end is read over and over, so that token `n` of a file is there
for every `n`.  A session that has taken `n` tokens is in one of two states: the next token is still
to be read, or it has been looked ahead at.  Every call answers with the tokens from number `n` on,
and what has been reported is what is found in the tokens read, each of them once.
-/

namespace ThreeAddress

/-- A last element that is the default makes no difference. -/
theorem getD_concat_self {α : Type} (l : List α) (x : α) (n : Nat) :
  (l ++ [x]).getD n x = l.getD n x
  := by
  by_cases hn : n < l.length
  · rw [List.getD_append _ _ _ _ hn]
  · rw [List.getD_append_right _ _ _ _ (by omega), List.getD_eq_default l x (by omega)]
    cases n - l.length with
    | zero => rfl
    | succ k => rfl

section

variable [Composing]

namespace Lexer

/-- The place behind the next token. -/
def behind (c : Cursor) : Cursor := (scan c).2

/-- Behind the last token the end of the file is read, again and again. -/
theorem scan_behind_of_trivia {c : Cursor} (hc : Trivia c.rest []) (n : Nat) :
  (scan (behind^[n] c)).1 = .ofEnd c.file (c.offset + c.rest.length)
  := by
  induction n generalizing c with
  | zero => rw [Function.iterate_zero_apply, scan_of_trivia hc]
  | succ n ih =>
      have hbehind : behind c = c.skip c.rest.length := by rw [behind, scan_of_trivia hc]
      have hrest : (c.skip c.rest.length).rest = [] := List.drop_length
      rw [Function.iterate_succ_apply, hbehind, ih (by rw [hrest]; exact .nil), hrest]
      rfl

/-- Reading from a place on, one token after another, reads the tokens that stand there and then the
end of the file.  Every token takes a byte. -/
theorem scan_behind_of_scans {file : FileId} {offset stop : Nat} {t gap : Text} {ls : List Lexed}
    (h : Scans file offset t ls stop gap) (hgap : Trivia gap []) {c : Cursor}
    (hfile : c.file = file) (hoffset : c.offset = offset) (hrest : c.rest = t) (n : Nat) :
  (scan (behind^[n] c)).1 = ls.getD n (.ofEnd file (stop + gap.length))
    ∧ ls.length ≤ n + (behind^[n] c).rest.length
  := by
  induction h generalizing c n with
  | done =>
      subst hfile hoffset hrest
      exact ⟨scan_behind_of_trivia hgap n, Nat.zero_le _⟩
  | @token offset stop gap piece rest after kind problem ls hbefore hsolid hpiece hscans ih =>
      subst hfile hoffset
      have hscan := scan_of_piece hrest hbefore hsolid hpiece
      cases n with
      | zero =>
          rw [Function.iterate_zero_apply, hscan, hrest]
          have hlength := (Scans.token hbefore hsolid hpiece hscans).length_le
          exact ⟨rfl, by omega⟩
      | succ n =>
          have hafter : ((c.skip gap.length).skip piece.length).rest = rest := by
            simp only [Cursor.skip, hrest, List.drop_left]
          obtain ⟨htoken, hlength⟩ :=
            @ih hgap ((c.skip gap.length).skip piece.length) rfl rfl hafter n
          have hbehind : behind c = (c.skip gap.length).skip piece.length := by rw [behind, hscan]
          rw [Function.iterate_succ_apply, hbehind, List.getD_cons_succ, List.length_cons]
          exact ⟨htoken, by omega⟩

end Lexer

/-! ### Numbered tokens -/

namespace File

/-- Token `n` of a file; behind the last one stands the end of the file. -/
def tokenAt (f : File) (n : Nat) : Lexed := f.lex.getD n (.ofEnd f.id f.content.length)

/-- The place before token `n` of a file. -/
def cursorAt (f : File) (n : Nat) : Cursor := Lexer.behind^[n] (Cursor.ofFile f)

/-- What is found in the first `n` tokens of a file. -/
def findings (f : File) (n : Nat) : List Diagnostic := (f.lex.take n).filterMap (·.diagnostic?)

variable (f : File)

theorem exists_lex :
  ∃ ls, f.lex = ls ++ [.ofEnd f.id f.content.length] ∧ (∀ l ∈ ls, l.token.kind ≠ .eof)
    ∧ ∀ n, (Lexer.scan (f.cursorAt n)).1 = ls.getD n (.ofEnd f.id f.content.length)
      ∧ ls.length ≤ n + (f.cursorAt n).rest.length
  := by
  obtain ⟨ls, stop, gap, hscans, hgap⟩ := exists_scans f.id 0 f.content
  have hstop : stop + gap.length = f.content.length := by
    rw [hscans.length_le.1, Nat.zero_add]
  refine ⟨ls, lex_of_scans hscans hgap, ?_, ?_⟩
  · intro l hl
    obtain ⟨start, kind, problem, piece, rest, rfl, hpiece⟩ := hscans.exists_piece hl
    exact hpiece.kind_class.2
  · intro n
    rw [← hstop]
    exact Lexer.scan_behind_of_scans hscans hgap rfl rfl rfl n

theorem scan_cursorAt (n : Nat) :
  Lexer.scan (f.cursorAt n) = (f.tokenAt n, f.cursorAt (n + 1))
  := by
  obtain ⟨ls, hlex, -, hscan⟩ := f.exists_lex
  have htoken : (Lexer.scan (f.cursorAt n)).1 = f.tokenAt n := by
    rw [(hscan n).1, tokenAt, hlex, getD_concat_self]
  have hcursor : (Lexer.scan (f.cursorAt n)).2 = f.cursorAt (n + 1) := by
    rw [cursorAt, cursorAt, Function.iterate_succ_apply']
    rfl
  rw [← htoken, ← hcursor]

/-- There is a byte for every token that is left. -/
theorem length_lex_le (n : Nat) :
  f.lex.length ≤ n + (f.cursorAt n).rest.length + 1
  := by
  obtain ⟨ls, hlex, -, hscan⟩ := f.exists_lex
  have hlength := (hscan n).2
  rw [hlex, List.length_append, List.length_singleton]
  omega

/-- The end of a file is its last token, and is read behind it too. -/
theorem tokenAt_eq_ofEnd_iff (n : Nat) :
  (f.tokenAt n).token.kind = .eof ↔ f.lex.length ≤ n + 1
  := by
  obtain ⟨ls, hlex, hkinds, -⟩ := f.exists_lex
  rw [tokenAt, hlex, List.length_append, List.length_singleton, getD_concat_self]
  by_cases hn : n < ls.length
  · rw [List.getD_eq_getElem _ _ hn]
    have hkind := hkinds _ (List.getElem_mem hn)
    exact ⟨fun h => absurd h hkind, fun h => by omega⟩
  · rw [List.getD_eq_default _ _ (by omega)]
    exact ⟨fun _ => by omega, fun _ => rfl⟩

/-- The first `n` tokens are those of the file, as far as there are any, and then its end. -/
theorem map_tokenAt_range (n : Nat) :
  (List.range n).map f.tokenAt
    = f.lex.take n ++ List.replicate (n - f.lex.length) (.ofEnd f.id f.content.length)
  := by
  induction n with
  | zero => rw [Nat.zero_sub]; rfl
  | succ n ih =>
      rw [List.range_succ, List.map_append, ih, List.map_singleton, tokenAt,
        List.getD_eq_getElem?_getD, List.take_add_one]
      by_cases hn : n < f.lex.length
      · have hbefore : n - f.lex.length = 0 := by omega
        have hbehind : n + 1 - f.lex.length = 0 := by omega
        rw [List.getElem?_eq_getElem hn, hbefore, hbehind]
        simp
      · have hbehind : n + 1 - f.lex.length = n - f.lex.length + 1 := by omega
        rw [List.getElem?_eq_none (Nat.le_of_not_lt hn), hbehind, List.replicate_succ']
        simp

theorem findings_succ (n : Nat) :
  f.findings (n + 1) = f.findings n ++ (f.tokenAt n).diagnostic?.toList
  := by
  rw [findings, findings, List.take_add_one, List.filterMap_append, tokenAt,
    List.getD_eq_getElem?_getD]
  cases f.lex[n]? with
  | none => rfl
  | some l =>
      cases h : l.diagnostic? with
      | none => simp [h]
      | some d => simp [h]

end File

/-! ### The states of a session -/

namespace File

/-- The session in which `n` tokens of a file have been taken, and whether the next one has been
looked ahead at. -/
def sessionAt (f : File) (n : Nat) : (ahead : Bool) → LexerSession
  | false => ⟨⟨f.cursorAt n, none⟩, f.findings n⟩
  | true => ⟨⟨f.cursorAt (n + 1), some (f.tokenAt n)⟩, f.findings (n + 1)⟩

/-- The number of tokens that are left when `n` tokens have been taken; the end of the file is
always left. -/
def tokensLeft (f : File) (n : Nat) : Nat := max 1 (f.lex.length - n)

variable (f : File) (n : Nat) (ahead : Bool)

theorem next_sessionAt :
  (f.sessionAt n ahead).next = (f.tokenAt n, f.sessionAt (n + 1) false)
  := by
  cases ahead with
  | true => rfl
  | false =>
      have hnext : (f.sessionAt n false).lexer.next
          = (f.tokenAt n, ⟨f.cursorAt (n + 1), none⟩) := by
        rw [sessionAt, Lexer.next]
        dsimp only
        rw [scan_cursorAt]
      rw [LexerSession.next, hnext, sessionAt, sessionAt, findings_succ]

theorem peek_sessionAt :
  (f.sessionAt n ahead).peek = (f.tokenAt n, f.sessionAt n true)
  := by
  rw [LexerSession.peek, next_sessionAt]
  rfl

theorem drain_sessionAt {steps : Nat} (hpos : 0 < steps) (hsteps : f.lex.length ≤ n + steps) :
  (f.sessionAt n ahead).drain steps
    = ((List.range' n (f.tokensLeft n)).map f.tokenAt, f.sessionAt (n + f.tokensLeft n) false)
  := by
  induction steps generalizing n ahead with
  | zero => exact absurd hpos (Nat.lt_irrefl 0)
  | succ steps ih =>
      rw [LexerSession.drain, next_sessionAt]
      dsimp only
      by_cases hend : f.lex.length ≤ n + 1
      · have hleft : f.tokensLeft n = 1 := by
          rw [tokensLeft]
          omega
        rw [if_pos ((f.tokenAt_eq_ofEnd_iff n).mpr hend), hleft]
        rfl
      · have hleft : f.tokensLeft n = f.tokensLeft (n + 1) + 1 := by
          rw [tokensLeft, tokensLeft]
          omega
        rw [if_neg (mt (f.tokenAt_eq_ofEnd_iff n).mp hend), ih (n + 1) false (by omega) (by omega),
          hleft, List.range'_succ, List.map_cons, Nat.add_right_comm, Nat.add_assoc]

/-- There are always enough steps for the tokens that are left. -/
theorem all_sessionAt :
  (f.sessionAt n ahead).all
    = ((List.range' n (f.tokensLeft n)).map f.tokenAt, f.sessionAt (n + f.tokensLeft n) false)
  := by
  rw [LexerSession.all]
  apply drain_sessionAt f n ahead (Nat.succ_pos _)
  cases ahead with
  | false =>
      have hlength := f.length_lex_le n
      change f.lex.length ≤ n + ((f.cursorAt n).rest.length + 2)
      omega
  | true =>
      have hlength := f.length_lex_le (n + 1)
      change f.lex.length ≤ n + ((f.cursorAt (n + 1)).rest.length + 2)
      omega

theorem call_peek :
  (f.sessionAt n ahead).call .peek = ([f.tokenAt n], f.sessionAt n true)
  := by
  rw [LexerSession.call, peek_sessionAt]

/-- The number of tokens that a call takes when `n` tokens have been taken. -/
def takenBy (f : File) (n : Nat) : LexerCall → Nat
  | .next => 1
  | .peek => 0
  | .all => f.tokensLeft n

/-- The number of tokens that some calls take, one after another. -/
def takenByAll (f : File) (n : Nat) : List LexerCall → Nat
  | [] => 0
  | c :: cs => f.takenBy n c + f.takenByAll (n + f.takenBy n c) cs

theorem call_sessionAt (c : LexerCall) :
  ((f.sessionAt n ahead).call c).2 = f.sessionAt (n + f.takenBy n c) (c == .peek)
  := by
  cases c with
  | next => rw [LexerSession.call, next_sessionAt]; rfl
  | peek => rw [call_peek]; rfl
  | all => rw [LexerSession.call, all_sessionAt]; rfl

end File

/-! ### Runs of calls -/

/-- The tokens that were taken: what was only looked ahead at does not count. -/
def takenTokens (answers : List (LexerCall × List Lexed)) : List Lexed :=
  (answers.filter (·.1 != .peek)).flatMap (·.2)

omit [Composing] in
theorem takenTokens_append (as bs : List (LexerCall × List Lexed)) :
  takenTokens (as ++ bs) = takenTokens as ++ takenTokens bs
  := by
  rw [takenTokens, List.filter_append, List.flatMap_append]
  rfl

namespace LexerSession

/-- A session takes the tokens that its lexer takes. -/
theorem lexer_next (s : LexerSession) :
  s.next.1 = s.lexer.next.1 ∧ s.next.2.lexer = s.lexer.next.2
  := by
  rw [next]
  cases s.lexer.look with
  | none => exact ⟨rfl, rfl⟩
  | some l => exact ⟨rfl, rfl⟩

theorem lexer_drain (s : LexerSession) (steps : Nat) :
  (s.drain steps).1 = (s.lexer.drain steps).1
  := by
  induction steps generalizing s with
  | zero => rfl
  | succ steps ih =>
      obtain ⟨htoken, hlexer⟩ := s.lexer_next
      rw [drain, Lexer.drain]
      dsimp only
      rw [htoken]
      split
      · rfl
      · dsimp only
        rw [ih, hlexer]

theorem run_cons (s : LexerSession) (c : LexerCall) (cs : List LexerCall) :
  s.run (c :: cs) = ((c, (s.call c).1) :: ((s.call c).2.run cs).1, ((s.call c).2.run cs).2)
  := rfl

theorem run_append (s : LexerSession) (cs ds : List LexerCall) :
  s.run (cs ++ ds) = ((s.run cs).1 ++ ((s.run cs).2.run ds).1, ((s.run cs).2.run ds).2)
  := by
  induction cs generalizing s with
  | nil => rfl
  | cons c cs ih =>
      rw [List.cons_append, run_cons, run_cons, ih]
      rfl

theorem map_run (s : LexerSession) (cs : List LexerCall) :
  (s.run cs).1.map (·.1) = cs
  := by
  induction cs generalizing s with
  | nil => rfl
  | cons c cs ih =>
      rw [run_cons, List.map_cons, ih]

end LexerSession

namespace File

variable (f : File) (n : Nat) (ahead : Bool)

theorem takenTokens_call (c : LexerCall) :
  takenTokens [(c, ((f.sessionAt n ahead).call c).1)]
    = (List.range' n (f.takenBy n c)).map f.tokenAt
  := by
  cases c with
  | next => rw [LexerSession.call, next_sessionAt]; rfl
  | peek => rfl
  | all => rw [LexerSession.call, all_sessionAt]; simp [takenTokens, takenBy]

/-- Calls take the tokens from number `n` on, and the next token has been looked ahead at if the
last call did so. -/
theorem run_sessionAt (cs : List LexerCall) :
  takenTokens ((f.sessionAt n ahead).run cs).1 = (List.range' n (f.takenByAll n cs)).map f.tokenAt
    ∧ ((f.sessionAt n ahead).run cs).2
      = f.sessionAt (n + f.takenByAll n cs) ((cs.getLast?.map (· == .peek)).getD ahead)
  := by
  induction cs generalizing n ahead with
  | nil => exact ⟨rfl, rfl⟩
  | cons c cs ih =>
      obtain ⟨htokens, hsession⟩ := ih (n + f.takenBy n c) (c == .peek)
      rw [← call_sessionAt f n ahead c] at htokens hsession
      rw [LexerSession.run_cons]
      constructor
      · rw [← List.singleton_append, takenTokens_append, takenTokens_call, htokens, takenByAll,
          ← List.map_append, List.range'_append_1]
      · rw [hsession, takenByAll, Nat.add_assoc, List.getLast?_cons]
        cases cs.getLast? with
        | none => rfl
        | some d => rfl

theorem length_lex_le_takenByAll {cs : List LexerCall} (hall : .all ∈ cs) :
  f.lex.length ≤ n + f.takenByAll n cs
  := by
  induction cs generalizing n with
  | nil => cases hall
  | cons c cs ih =>
      rw [takenByAll]
      obtain rfl | hall := List.mem_cons.mp hall
      · rw [takenBy, tokensLeft]
        omega
      · have := ih (n + f.takenBy n c) hall
        omega

/-- The tokens of a file that is shorter than four gigabytes start one behind the other. -/
theorem increasing_lex {f : File} (hsize : f.content.length < UInt32.size) :
  (f.lex.map (·.token.span)).Pairwise fun s s' => s.start < s'.start ∧ s.stop ≤ s'.start
  := by
  obtain ⟨ls, stop, gap, hscans, hgap⟩ := exists_scans f.id 0 f.content
  have hbetween : List.IsChain f.Between (⟨f.id, 0, 0⟩ :: f.lex.map (·.token.span)) := by
    rw [lex_of_scans hscans hgap]
    exact hscans.between hsize rfl (Nat.zero_le _) hgap rfl
  rw [lex_of_scans hscans hgap, List.map_append] at hbetween ⊢
  apply increasing_of_isChain hbetween
  · intro s hs
    obtain ⟨l, hl, rfl⟩ := List.mem_map.mp hs
    exact (hscans.holds hsize rfl l hl).start_lt
  · apply UInt32.le_refl

/-- What is found in tokens stands in the order of the file, each at a place of its own. -/
theorem pairwise_findings {f : File} (hsize : f.content.length < UInt32.size) (n : Nat) :
  (f.findings n).Pairwise fun d d' => d.span.start < d'.span.start
  := by
  have hlex := (List.pairwise_map.mp (increasing_lex hsize)).sublist (List.take_sublist n f.lex)
  rw [findings, List.pairwise_filterMap]
  apply hlex.imp
  intro l l' hlt d hd d' hd'
  obtain ⟨p, -, rfl⟩ := Option.map_eq_some_iff.mp hd
  obtain ⟨p', -, rfl⟩ := Option.map_eq_some_iff.mp hd'
  exact hlt.1

/-- What calls on one lexer show of a file.

The tokens taken are those that are read if nothing is looked ahead at, and after the last of these
only further ends of the file; as soon as all tokens are asked for, none is missing.  Looking ahead
shows the token that is taken next, whatever calls come between.  Every finding in a token that was
shown has been reported, once and in the order of the file, and nothing else has. -/
structure ShownBy (f : File) (calls : List LexerCall) (answers : List (LexerCall × List Lexed))
    (reported : List Diagnostic) : Prop where
  answered : answers.map (·.1) = calls
  taken : ∃ last ∈ f.lex.getLast?, last.token.kind = .eof ∧
    takenTokens answers = f.lex.take (takenTokens answers).length
      ++ List.replicate ((takenTokens answers).length - f.lex.length) last
  complete : .all ∈ calls → f.lex.length ≤ (takenTokens answers).length
  peeked : ∀ before after, calls = before ++ .peek :: after → ∃ l rest,
    answers = ((LexerSession.ofFile f).run before).1 ++ (.peek, [l]) :: rest
      ∧ ((LexerSession.ofFile f).run (before ++ [.peek])).2.next.1 = l
      ∧ ∀ l' ∈ (takenTokens rest).head?, l' = l
  found : reported = (f.lex.take ((takenTokens answers).length
    + if calls.getLast? = some .peek then 1 else 0)).filterMap (·.diagnostic?)
  found_all : .all ∈ calls → reported = f.lex.filterMap (·.diagnostic?)
  ordered : f.content.length < UInt32.size →
    reported.Pairwise fun d d' => d.span.start < d'.span.start

end File

theorem LexerSession.ofFile_eq (f : File) :
  LexerSession.ofFile f = f.sessionAt 0 false
  := rfl

/-- What is shown by looking ahead is what is taken next, by the next call or a later one. -/
theorem File.run_peek (f : File) (before after : List LexerCall) :
  ∃ l rest, ((LexerSession.ofFile f).run (before ++ .peek :: after)).1
      = ((LexerSession.ofFile f).run before).1 ++ (.peek, [l]) :: rest
    ∧ ((LexerSession.ofFile f).run (before ++ [.peek])).2.next.1 = l
    ∧ ∀ l' ∈ (takenTokens rest).head?, l' = l
  := by
  obtain ⟨n, ahead, hbefore⟩ : ∃ n ahead,
      ((LexerSession.ofFile f).run before).2 = f.sessionAt n ahead :=
    ⟨_, _, (f.run_sessionAt 0 false before).2⟩
  refine ⟨f.tokenAt n, ((f.sessionAt n true).run after).1, ?_, ?_, ?_⟩
  · rw [LexerSession.run_append, LexerSession.run_cons, hbefore, call_peek]
  · rw [LexerSession.run_append, LexerSession.run_cons, hbefore, call_peek, LexerSession.run,
      next_sessionAt]
  · intro l hl
    rw [(f.run_sessionAt n true after).1, List.head?_map, List.head?_range'] at hl
    split at hl
    · cases hl
    · cases hl
      rfl

/-- Looking ahead is invisible: whatever is asked of a lexer and in whatever order, the same tokens
are taken and the same findings are reported, once each, as by reading from the front to the end. -/
theorem File.look_ahead_is_invisible (f : File) (calls : List LexerCall) :
  (LexerSession.ofFile f).all.1 = f.lex
    ∧ f.ShownBy calls ((LexerSession.ofFile f).run calls).1
      ((LexerSession.ofFile f).run calls).2.reported
  := by
  use LexerSession.lexer_drain _ _
  obtain ⟨htaken, hsession⟩ := f.run_sessionAt 0 false calls
  rw [← LexerSession.ofFile_eq] at htaken hsession
  have hlength : (takenTokens ((LexerSession.ofFile f).run calls).1).length
      = f.takenByAll 0 calls := by
    rw [htaken, List.length_map, List.length_range']
  have hcomplete : .all ∈ calls → f.lex.length ≤ f.takenByAll 0 calls := by
    intro hall
    have := f.length_lex_le_takenByAll 0 hall
    omega
  have hreported : ((LexerSession.ofFile f).run calls).2.reported
      = f.findings (f.takenByAll 0 calls + if calls.getLast? = some .peek then 1 else 0) := by
    rw [hsession, Nat.zero_add]
    cases calls.getLast? with
    | none => rfl
    | some c => cases c <;> rfl
  constructor
  case answered => exact LexerSession.map_run _ calls
  case taken =>
    obtain ⟨ls, hlex, -, -⟩ := f.exists_lex
    refine ⟨.ofEnd f.id f.content.length, by rw [hlex, List.getLast?_concat]; rfl, rfl, ?_⟩
    rw [hlength, htaken, ← List.range_eq_range', f.map_tokenAt_range]
  case complete =>
    rw [hlength]
    exact hcomplete
  case peeked =>
    rintro before after rfl
    exact f.run_peek before after
  case found =>
    rw [hlength, hreported]
    rfl
  case found_all =>
    intro hall
    have := hcomplete hall
    rw [hreported, findings, List.take_of_length_le (by omega)]
  case ordered =>
    intro hsize
    rw [hreported]
    exact pairwise_findings hsize _

end

example : ((LexerSession.ofFile { content := "1a &" }).run
      [.peek, .peek, .next, .all, .peek, .next]).2.reported.map (·.span.start) = [0, 3] := by
  decide +kernel

end ThreeAddress
