import ThreeAddress.Proofs.Syntax.Rounds

/-!
# Parses with and without a limit on errors

A limit on errors changes what is reported, and it makes lists of statements give up.  Nothing else
looks at the errors that were counted.  What is looked at is a word, so that what is reported is
described as long as the errors counted fit into a word.  So a parse with a limit is mirrored by a
parse that has no limit and reports everything, but is cancelled: both take the same tokens, make
the same nodes and find the same errors, if they give up before the same statements.

The places where a parse looks whether it gives up are the checks on its way.  Between two checks a
token is taken, and after a check that stops the parse no token is left, so some moment of
cancelling gives all checks the same outcomes.
-/

namespace ThreeAddress

open Outcome

/-- The remark after the last finding that the limit permits. -/
def Report.stopping (r : Report) : Report where
  taken := r.taken
  diagnostic :=
    { severity := .info
      code := .tooManyErrors
      span := r.diagnostic.span
      message := "too many errors, parsing stopped" }

/-- What is reported of the errors that are found, if there is room for so many of them. -/
def reported (room : Nat) (found : List Report) : List Report :=
  found.take room
    ++ if room ≤ found.length then ((found.take room).getLast?.map Report.stopping).toList else []

theorem reported_concat (room : Nat) (found : List Report) (r : Report) :
  reported room (found ++ [r]) = reported room found
    ++ if room ≤ found.length then []
      else r :: if room ≤ found.length + 1 then [r.stopping] else []
  := by
  have hlength : (found ++ [r]).length = found.length + 1 := by simp
  rw [reported, reported, hlength]
  by_cases hfull : room ≤ found.length
  · rw [if_pos hfull, if_pos (Nat.le_succ_of_le hfull), if_pos hfull,
      List.take_append_of_le_length hfull, List.append_nil]
  · have hall : (found ++ [r]).take room = found ++ [r] :=
      List.take_of_length_le (by omega)
    have hbefore : found.take room = found := List.take_of_length_le (by omega)
    rw [if_neg hfull, if_neg hfull, hall, hbefore]
    by_cases hlast : room ≤ found.length + 1
    · simp [if_pos hlast]
    · simp [if_neg hlast]

namespace ParseState

/-- The finding that a report makes. -/
def finding (s : ParseState) (p : SyntaxProblem) (opened : Option Span) : Report where
  taken := s.taken
  diagnostic :=
    { severity := .error
      code := p.code
      span := s.findingSpan
      message := p.message
      notes := opened.toList.map fun sp => ⟨sp, "opened here"⟩ }

variable {o : ParseOptions} {s : ParseState}

/-- Without a limit every finding is reported. -/
theorem report_of_unlimited (hmax : o.maxErrors = 0) (hsilent : o.silent = false)
    (s : ParseState) (p : SyntaxProblem) (opened : Option Span) :
  s.report o p opened
    = { s with errors := s.errors + 1, reports := s.reports.push (s.finding p opened) }
  := by
  simp [report, hmax, hsilent, record, isEnough, finding, findingSpan, isAt, peek]

theorem counter_of_lt (h : s.errors < Word.count) :
  s.counter = s.errors
  := Nat.mod_eq_of_lt h

/-- With a limit a finding is reported as long as there is room for it and the counter does not wrap
around. -/
theorem reports_report_of_limited (hmax : 0 < o.maxErrors) (hsilent : o.silent = false)
    (hfits : s.errors + 1 < Word.count) (p : SyntaxProblem) (opened : Option Span) :
  (s.report o p opened).reports.toList = s.reports.toList
    ++ if o.maxErrors ≤ s.errors then []
      else s.finding p opened ::
        if o.maxErrors ≤ s.errors + 1 then [(s.finding p opened).stopping] else []
  := by
  have hcounter : ∀ s' : ParseState, s'.errors = s.errors + 1 → s'.counter = s.errors + 1 := by
    intro s' hs'
    rw [counter_of_lt (by omega), hs']
  unfold report
  by_cases hfull : o.maxErrors ≤ s.errors
  · simp [hcounter, hsilent, hfull, Nat.ne_of_gt hmax, Nat.lt_succ_of_le hfull]
  · have hnot : ¬ o.maxErrors < s.errors + 1 := by omega
    by_cases hlast : o.maxErrors ≤ s.errors + 1
    · simp [hcounter, hsilent, hfull, hnot, hlast, isEnough, record, Nat.ne_of_gt hmax, finding,
        Report.stopping, findingSpan, isAt, peek]
    · simp [hcounter, hsilent, hfull, hnot, hlast, isEnough, record, finding, findingSpan, isAt,
        peek]

end ParseState

/-! ### States that mirror each other -/

/-- The states stand at the same place and have the same nodes. -/
structure Alike (s t : ParseState) : Prop where
  rest : t.rest = s.rest
  endSpan : t.endSpan = s.endSpan
  last : t.last = s.last
  taken : t.taken = s.taken
  tree : t.tree = s.tree

namespace Alike

variable {s t : ParseState}

theorem refl (s : ParseState) :
  Alike s s
  := ⟨rfl, rfl, rfl, rfl, rfl⟩

theorem advance (h : Alike s t) (tok : Token) (rest : List Token) :
  Alike (s.advance tok rest) (t.advance tok rest)
  := ⟨rfl, h.endSpan, rfl, congrArg (· + 1) h.taken, h.tree⟩

theorem peek (h : Alike s t) :
  t.peek = s.peek
  := by
  rw [ParseState.peek, ParseState.peek, h.rest, h.endSpan]

theorem isAt (h : Alike s t) (k : TokenKind) :
  t.isAt k = s.isAt k
  := by
  rw [ParseState.isAt, ParseState.isAt, h.peek]

theorem left (h : Alike s t) :
  t.left = s.left
  := congrArg List.length h.rest

theorem finding (h : Alike s t) (p : SyntaxProblem) (opened : Option Span) :
  t.finding p opened = s.finding p opened
  := by
  simp only [ParseState.finding, ParseState.findingSpan, h.isAt, h.peek, h.last, h.taken]

end Alike

/-- In a parse with a limit that began with `c` errors, the state `s` is mirrored by the state `t`
of a parse that reports everything. -/
structure Reflects (o : ParseOptions) (c : Nat) (s t : ParseState) : Prop where
  alike : Alike s t
  errors : t.errors = s.errors
  counted : t.errors = c + t.reports.toList.length
  severities : ∀ r ∈ t.reports.toList, r.diagnostic.severity = .error
  reports : o.silent = false → s.errors < Word.count →
    s.reports.toList = reported (o.maxErrors - c) t.reports.toList

/-- A parse that reports everything. -/
structure ParseOptions.Open (o : ParseOptions) : Prop where
  limit : o.maxErrors = 0
  silent : o.silent = false

namespace Reflects

variable {o o' : ParseOptions} {c : Nat} {s t : ParseState}

theorem advance (h : Reflects o c s t) (tok : Token) (rest : List Token) :
  Reflects o c (s.advance tok rest) (t.advance tok rest)
  := ⟨h.alike.advance tok rest, h.errors, h.counted, h.severities, h.reports⟩

/-- The same nodes are added to both. -/
theorem withTree (h : Reflects o c s t) (tree : Tree) :
  Reflects o c { s with tree } { t with tree }
  := ⟨⟨h.alike.rest, h.alike.endSpan, h.alike.last, h.alike.taken, rfl⟩, h.errors, h.counted,
    h.severities, h.reports⟩

/-- Both find the same error, and the limit decides whether it is reported. -/
theorem report (hmax : 0 < o.maxErrors) (ho : o'.Open) (h : Reflects o c s t) (p : SyntaxProblem)
    (opened : Option Span) :
  Reflects o c (s.report o p opened) (t.report o' p opened)
  := by
  have hcounted := h.counted
  have herrors := h.errors
  rw [ParseState.report_of_unlimited ho.limit ho.silent]
  constructor
  case alike =>
    obtain ⟨errors, reports, heq⟩ := ParseState.report_eq o s p opened
    rw [heq]
    exact ⟨h.alike.rest, h.alike.endSpan, h.alike.last, h.alike.taken, h.alike.tree⟩
  case errors => rw [ParseState.errors_report, ← herrors]
  case counted =>
    simp only [Array.toList_push, List.length_append, List.length_singleton]
    omega
  case severities =>
    intro r hr
    rw [Array.toList_push, List.mem_append, List.mem_singleton] at hr
    obtain hr | rfl := hr
    · apply h.severities r hr
    · rfl
  case reports =>
    intro hsilent hfits
    rw [ParseState.errors_report] at hfits
    have hfull : o.maxErrors ≤ s.errors ↔ o.maxErrors - c ≤ t.reports.toList.length := by omega
    have hlast : o.maxErrors ≤ s.errors + 1 ↔ o.maxErrors - c ≤ t.reports.toList.length + 1 := by
      omega
    rw [ParseState.reports_report_of_limited hmax hsilent hfits, Array.toList_push, reported_concat,
      h.reports hsilent (by omega), h.alike.finding]
    simp only [hfull, hlast]

end Reflects

/-! ### Checks -/

/-- A look at whether to give up, after so many tokens have been taken. -/
structure Check where
  taken : Nat
  stops : Bool

/-- Whether a parse is cancelled after so many tokens have been taken. -/
def ParseOptions.cancelledAt (o : ParseOptions) (taken : Nat) : Bool :=
  o.cancelled && decide (o.cancelledAfter ≤ taken)

/-- Cancelling alone gives the checks their outcomes. -/
def ParseOptions.Decides (o : ParseOptions) (checks : List Check) : Prop :=
  ∀ e ∈ checks, o.cancelledAt e.taken = e.stops

/-- The way from `s` to `s'` with the checks on it, all of them after at least `lo` tokens. -/
structure Way (o : ParseOptions) (lo : Nat) (s s' : ParseState) (checks : List Check) : Prop where
  taken_le : s.taken ≤ s'.taken
  sum : s'.taken + s'.left = s.taken + s.left
  errors_le : s.errors ≤ s'.errors
  bounds : ∀ e ∈ checks, lo ≤ e.taken ∧ s.taken ≤ e.taken ∧ e.taken < s'.taken
  ordered : checks.Pairwise fun e e' => e.taken < e'.taken ∧ e.stops = false
  stopped : ∀ e ∈ checks, e.stops = true →
    s'.left = 0 ∧ (o.cancelledAt e.taken = true ∨ o.maxErrors ≤ s'.errors)
  passed : ∀ e ∈ checks, e.stops = false → o.cancelledAt e.taken = false

namespace Way

variable {o : ParseOptions} {lo : Nat} {s s' s₂ : ParseState} {checks checks' : List Check}

/-- A way without checks. -/
theorem unchecked (htaken : s.taken ≤ s'.taken) (hsum : s'.taken + s'.left = s.taken + s.left)
    (herrors : s.errors ≤ s'.errors) :
  Way o lo s s' []
  := ⟨htaken, hsum, herrors, nofun, .nil, nofun, nofun⟩

theorem append (h : Way o lo s s' checks) (h' : Way o lo s' s₂ checks') :
  Way o lo s s₂ (checks ++ checks')
  := by
  have htaken := h.taken_le
  have htaken' := h'.taken_le
  have hsum := h.sum
  have hsum' := h'.sum
  constructor
  case taken_le => exact Nat.le_trans htaken htaken'
  case sum => rw [hsum', hsum]
  case errors_le => exact Nat.le_trans h.errors_le h'.errors_le
  case bounds =>
    intro e he
    obtain he | he := List.mem_append.mp he
    · have hbounds := h.bounds e he
      omega
    · have hbounds := h'.bounds e he
      omega
  case ordered =>
    refine List.pairwise_append.mpr ⟨h.ordered, h'.ordered, ?_⟩
    intro e he e' he'
    have hbounds := h.bounds e he
    have hbounds' := h'.bounds e' he'
    refine ⟨by omega, ?_⟩
    -- behind a check that stops no token is left, so there is no later check
    by_contra hstops
    rw [Bool.not_eq_false] at hstops
    have hleft := (h.stopped e he hstops).1
    omega
  case stopped =>
    intro e he hstops
    obtain he | he := List.mem_append.mp he
    · obtain ⟨hleft, hwhy⟩ := h.stopped e he hstops
      refine ⟨by omega, hwhy.imp_right fun henough => ?_⟩
      exact Nat.le_trans henough h'.errors_le
    · exact h'.stopped e he hstops
  case passed =>
    intro e he
    obtain he | he := List.mem_append.mp he
    · exact h.passed e he
    · exact h'.passed e he

end Way

/-- Some moment of cancelling gives ordered checks their outcomes. -/
theorem exists_decides {checks : List Check}
    (h : checks.Pairwise fun e e' => e.taken < e'.taken ∧ e.stops = false) :
  ∃ moment, ParseOptions.Decides { cancelled := true, cancelledAfter := moment } checks
  := by
  induction checks with
  | nil => exact ⟨0, nofun⟩
  | cons e checks ih =>
      obtain ⟨hbefore, hchecks⟩ := List.pairwise_cons.mp h
      cases hstops : e.stops with
      | true =>
          have hnone : checks = [] := by
            apply List.eq_nil_iff_forall_not_mem.mpr
            intro e' he'
            rw [(hbefore e' he').2] at hstops
            cases hstops
          refine ⟨e.taken, ?_⟩
          rw [hnone]
          intro e' he'
          rw [List.mem_singleton.mp he', hstops]
          simp [ParseOptions.cancelledAt]
      | false =>
          obtain ⟨moment, hmoment⟩ := ih hchecks
          refine ⟨max moment (e.taken + 1), List.forall_mem_cons.mpr ⟨?_, ?_⟩⟩
          · rw [hstops]
            simp only [ParseOptions.cancelledAt, Bool.true_and, decide_eq_false_iff_not]
            omega
          · intro e' he'
            have hlt := (hbefore e' he').1
            rw [← hmoment e' he']
            simp only [ParseOptions.cancelledAt, Bool.true_and, decide_eq_decide]
            omega

/-! ### Parsers that are mirrored -/

/-- A parser that starts in `s` is mirrored by the same parser in a parse that reports everything,
if that parse is cancelled where this one gives up. -/
def Mirrored {α : Type} (o : ParseOptions) (c lo : Nat) (s : ParseState)
    (run : ParseOptions → ParseState → Outcome α) : Prop :=
  ∃ checks, Way o lo s (run o s).2 checks
    ∧ ∀ o' t, o'.Open → o'.Decides checks → Reflects o c s t →
      (run o' t).1 = (run o s).1 ∧ Reflects o c (run o s).2 (run o' t).2

namespace Mirrored

variable {α β : Type} {o : ParseOptions} {c lo : Nat} {s : ParseState}
variable {run run' : ParseOptions → ParseState → Outcome α}

theorem congr (hrun : ∀ o' t, Alike s t → run' o' t = run o' t) (h : Mirrored o c lo s run) :
  Mirrored o c lo s run'
  := by
  obtain ⟨checks, hway, hmirror⟩ := h
  have hself := hrun o s (.refl s)
  refine ⟨checks, hself ▸ hway, ?_⟩
  intro o' t ho hdecides ht
  rw [hself, hrun o' t ht.alike]
  exact hmirror o' t ho hdecides ht

theorem value (v : Option α) :
  Mirrored o c lo s fun _ t => (v, t)
  := ⟨[], .unchecked (Nat.le_refl _) rfl (Nat.le_refl _), fun _ _ _ _ ht => ⟨rfl, ht⟩⟩

theorem take {tok : Token} {rest : List Token} (hs : s.rest = tok :: rest) :
  Mirrored o c lo s fun _ t => (some tok, t.advance tok rest)
  := by
  refine ⟨[], .unchecked (Nat.le_succ _) ?_ (Nat.le_refl _), fun _ t _ _ ht =>
    ⟨rfl, ht.advance tok rest⟩⟩
  rw [ParseState.left, ParseState.left, hs, List.length_cons]
  change s.taken + 1 + rest.length = _
  omega

theorem report (hmax : 0 < o.maxErrors) (p : SyntaxProblem) (opened : Option Span) :
  Mirrored o c lo s fun o' t => ((none, t.report o' p opened) : Outcome α)
  := by
  obtain ⟨errors, reports, heq⟩ := ParseState.report_eq o s p opened
  refine ⟨[], .unchecked ?_ ?_ ?_, fun _ t ho _ ht => ⟨rfl, ht.report hmax ho p opened⟩⟩
  · have htaken : (s.report o p opened).taken = s.taken := by rw [heq]
    apply Nat.le_of_eq htaken.symm
  · change (s.report o p opened).taken + (s.report o p opened).left = _
    rw [heq]
    rfl
  · change s.errors ≤ (s.report o p opened).errors
    rw [ParseState.errors_report]
    apply Nat.le_succ

/-- What follows a parser, whether it succeeds or not. -/
theorem bind (h : Mirrored o c lo s run)
    {k : Option α → ParseOptions → ParseState → Outcome β}
    (hk : ∀ v s', run o s = (v, s') → s.taken ≤ s'.taken → s'.taken + s'.left = s.taken + s.left →
      Mirrored o c lo s' (k v)) :
  Mirrored o c lo s fun o' t => k (run o' t).1 o' (run o' t).2
  := by
  obtain ⟨checks, hway, hmirror⟩ := h
  obtain ⟨checks', hway', hmirror'⟩ := hk _ _ rfl hway.taken_le hway.sum
  refine ⟨checks ++ checks', hway.append hway', ?_⟩
  intro o' t ho hdecides ht
  obtain ⟨hdecides, hdecides'⟩ := List.forall_mem_append.mp hdecides
  obtain ⟨hvalue, ht'⟩ := hmirror o' t ho hdecides ht
  dsimp only
  rw [hvalue]
  exact hmirror' o' _ ho hdecides' ht'

/-- What follows a success. -/
theorem andThen (h : Mirrored o c lo s run) {f : ParseOptions → α → ParseState → Outcome β}
    (hf : ∀ a s', run o s = (some a, s') → s.taken ≤ s'.taken →
      s'.taken + s'.left = s.taken + s.left → Mirrored o c lo s' fun o' t => f o' a t) :
  Mirrored o c lo s fun o' t => (run o' t).andThen (f o')
  := by
  have hbind := h.bind
    (k := fun v o' t => match v with | some a => f o' a t | none => (none, t)) fun v s' hrun =>
      match v with
      | some a => hf a s' hrun
      | none => fun _ _ => value none
  apply hbind.congr
  intro o' t _
  rcases run o' t with ⟨_ | a, t'⟩ <;> rfl

end Mirrored

end ThreeAddress
