import ThreeAddress.Proofs.Run.Following
import ThreeAddress.Proofs.Syntax.Acceptance

/-!
# Limits of runs

A run that is never ended by anything else is ended by its limits: it comes to an end, it counts at
most one step more than it may, and there are never more calls under way than it may have.  Raising
the limits changes nothing in a run that did not reach them, and only adds to the output of one that
did.

The calls under way are those that the tasks of a run have still to leave, and a call that is
planned found room for itself when it was planned: what is planned before it is done without a call
under way that was not there already.

The end is certain only below the largest word.  Under this limit the word that counts the steps is
never over it, and a loop can go on forever.
-/

namespace ThreeAddress

open RunPoint

/-! ### Calls under way -/

namespace RunTask

variable {depth : Nat} {ts : List RunTask}

/-- The number of calls that the tasks leave. -/
def leaves (ts : List RunTask) : Nat := ts.countP isLeave

/-- Every call that is planned has room where its turn comes. -/
def Fits (depth : Nat) : List RunTask → Prop
  | [] => True
  | call .. :: ts => leaves ts < depth ∧ Fits depth ts
  | _ :: ts => Fits depth ts

theorem isLeave_of_isPlain {task : RunTask} (h : task.isPlain) :
  task.isLeave = false
  := by
  cases task with
  | leave => cases h
  | _ => rfl

theorem leaves_append_plain (h : ts.all isPlain) (rest : List RunTask) :
  leaves (ts ++ rest) = leaves rest
  := by
  have hnone : ts.countP isLeave = 0 := by
    apply List.countP_eq_zero.mpr
    intro task htask
    rw [isLeave_of_isPlain (List.all_eq_true.mp h task htask)]
    exact Bool.false_ne_true
  rw [leaves, List.countP_append, hnone, Nat.zero_add, leaves]

theorem leaves_leave (ts : List RunTask) :
  leaves (leave :: ts) = leaves ts + 1
  := List.countP_cons_of_pos (p := isLeave) rfl

theorem fits_cons_plain {task : RunTask} (h : task.isPlain) :
  Fits depth (task :: ts) ↔ Fits depth ts
  := by
  cases task with
  | call => cases h
  | _ => exact Iff.rfl

theorem fits_append_plain (h : ts.all isPlain) (rest : List RunTask) :
  Fits depth (ts ++ rest) ↔ Fits depth rest
  := by
  induction ts with
  | nil => exact Iff.rfl
  | cons task ts ih =>
      obtain ⟨htask, hts⟩ := Bool.and_eq_true_iff.mp h
      exact (fits_cons_plain htask).trans (ih hts)

theorem Fits.tail {task : RunTask} (h : Fits depth (task :: ts)) :
  Fits depth ts
  := by
  cases task with
  | call => exact h.2
  | _ => exact h

theorem leaves_skip (ts : List RunTask) :
  leaves (ts.dropWhile (!·.isLeave)) = leaves ts
  := by
  induction ts with
  | nil => rfl
  | cons task ts ih =>
      cases hleave : task.isLeave with
      | true => rw [List.dropWhile_cons_of_neg (by simp [hleave])]
      | false =>
          rw [List.dropWhile_cons_of_pos (by simp [hleave]), ih]
          rw [leaves, leaves, List.countP_cons_of_neg (by simp [hleave])]

theorem Fits.skip (h : Fits depth ts) :
  Fits depth (ts.dropWhile (!·.isLeave))
  := by
  induction ts with
  | nil => exact h
  | cons task ts ih =>
      rw [List.dropWhile_cons]
      split
      · exact ih h.tail
      · exact h

end RunTask

/-- The state respects the limit of depth, now and at every point before. -/
structure RunState.WithinDepth (depth : Nat) (s : RunState) : Prop where
  frames : s.frames.length ≤ depth
  deepest : s.stats.deepest ≤ depth

theorem RunState.WithinDepth.quiet {depth : Nat} {s s' : RunState} (h : s.WithinDepth depth)
    (hquiet : s.Quiet s') :
  s'.WithinDepth depth
  := by
  constructor
  · rw [hquiet.frames]
    exact h.frames
  · rw [hquiet.stats]
    exact h.deepest

/-- The tasks leave the calls under way, and those that are planned have room. -/
structure RunStack.Nested (depth : Nat) (k : RunStack) (s : RunState) : Prop where
  within : s.WithinDepth depth
  leaves : RunTask.leaves k.tasks = s.frames.length
  fits : RunTask.Fits depth k.tasks

namespace RunTask

variable {depth : Nat} {k k' : RunStack} {s s' : RunState}

theorem Continues.nested (h : Continues (s.frames.length < depth) k k') (hk : k.Nested depth s)
    (hquiet : s.Quiet s') :
  k'.Nested depth s'
  := by
  have hleaves : leaves k.tasks = s'.frames.length := by rw [hquiet.frames, hk.leaves]
  cases h with
  | plan hplain =>
      refine ⟨hk.within.quiet hquiet, ?_, ?_⟩
      · exact (leaves_append_plain hplain _).trans hleaves
      · exact (fits_append_plain hplain _).mpr hk.fits
  | planCall hplain hroom =>
      refine ⟨hk.within.quiet hquiet, ?_, ?_⟩
      · rw [List.append_assoc, leaves_append_plain hplain]
        exact hleaves
      · rw [List.append_assoc]
        rw [← hk.leaves] at hroom
        exact (fits_append_plain hplain _).mpr ⟨hroom, hk.fits⟩
  | skip => exact ⟨hk.within.quiet hquiet, (leaves_skip _).trans hleaves, hk.fits.skip⟩

/-- A call that is planned has room when it is entered. -/
theorem nested_call {f : FunctionBody} {site : CallSite} {args : Nat} {values : List Value}
    {ts : List RunTask} (h : RunStack.Nested depth ⟨call f site args :: ts, values⟩ s)
    (frame : CallFrame) (values' : List Value) :
  RunStack.Nested depth ⟨(f.body.map .exec ++ [finish, leave]) ++ ts, values'⟩ (s.enter frame)
  := by
  obtain ⟨hroom, hfits⟩ : leaves ts < depth ∧ Fits depth ts := h.fits
  have hleaves : leaves ts = s.frames.length := h.leaves
  have hplain := all_map_exec f.body
  refine ⟨⟨?_, ?_⟩, ?_, ?_⟩
  · change s.frames.length + 1 ≤ depth
    omega
  · exact Nat.max_le.mpr ⟨h.within.deepest, by omega⟩
  · change leaves ((f.body.map .exec ++ [finish, leave]) ++ ts) = s.frames.length + 1
    rw [List.append_assoc, leaves_append_plain hplain, ← hleaves]
    exact leaves_leave ts
  · change Fits depth ((f.body.map .exec ++ [finish, leave]) ++ ts)
    rw [List.append_assoc]
    exact (fits_append_plain hplain _).mpr hfits

/-- The task that leaves a call leaves one that is under way. -/
theorem nested_leave {values : List Value} {ts : List RunTask}
    (h : RunStack.Nested depth ⟨leave :: ts, values⟩ s) :
  RunStack.Nested depth ⟨ts, values⟩ s.leave
  := by
  have hleaves : leaves (leave :: ts) = s.frames.length := h.leaves
  rw [leaves_leave] at hleaves
  have hframes : s.leave.frames.length = leaves ts := by
    change s.frames.tail.length = _
    rw [List.length_tail]
    omega
  have hbound := h.within.frames
  exact ⟨⟨by omega, h.within.deepest⟩, hframes.symm, h.fits.tail⟩

/-- Doing the first task keeps the calls nested. -/
theorem nested_act {task : RunTask} {values : List Value} {ts : List RunTask}
    (h : RunStack.Nested depth ⟨task :: ts, values⟩ s) :
  ((task.act depth ⟨ts, values⟩).run s).2.WithinDepth depth
    ∧ ∀ k', ((task.act depth ⟨ts, values⟩).run s).1 = .ok k' →
      k'.Nested depth ((task.act depth ⟨ts, values⟩).run s).2
  := by
  obtain hplain | ⟨f, site, args, rfl⟩ | rfl := task.isPlain_or
  · have hacts : Acts depth ⟨ts, values⟩ s _ := acts_act hplain
    have hleaves : leaves ([task] ++ ts) = s.frames.length := h.leaves
    rw [leaves_append_plain (by simp [hplain])] at hleaves
    have hrest : RunStack.Nested depth ⟨ts, values⟩ s := ⟨h.within, hleaves, h.fits.tail⟩
    refine ⟨h.within.quiet hacts.quiet, ?_⟩
    intro k' hk
    exact (hacts.stack k' hk).nested hrest hacts.quiet
  · rw [run_act_call]
    refine ⟨(nested_call h _ values).within, ?_⟩
    rintro k' ⟨⟩
    exact nested_call h _ _
  · rw [run_act_leave]
    refine ⟨(nested_leave h).within, ?_⟩
    rintro k' ⟨⟩
    exact nested_leave h

end RunTask

namespace RunPoint

variable {limits : RunLimits} {p q : RunPoint}

/-- There are at most as many calls under way as there may be, and what is left to do keeps it
so. -/
def Nested (depth : Nat) : RunPoint → Prop
  | going k s => k.Nested depth s
  | ended _ s => s.WithinDepth depth

theorem Nested.withinDepth {depth : Nat} (h : p.Nested depth) :
  p.state.WithinDepth depth
  := by
  cases p with
  | going k s => exact h.within
  | ended fault s => exact h

theorem nested_counted {depth : Nat} {k : RunStack} {s : RunState} (h : k.Nested depth s) :
  k.Nested depth s.counted
  := ⟨⟨h.within.frames, h.within.deepest⟩, h.leaves, h.fits⟩

/-- A step keeps the limit of depth. -/
theorem Moves.nested (h : p.Moves limits q) (hp : p.Nested limits.depth) :
  q.Nested limits.depth
  := by
  cases h with
  | stay => exact hp
  | finish => exact hp.within
  | refuse => exact (nested_counted hp).within
  | @act task tasks values s s' hcounts =>
      have hnested : RunStack.Nested limits.depth ⟨task :: tasks, values⟩ s' := by
        obtain rfl | ⟨rfl, -⟩ := hcounts
        · exact hp
        · exact nested_counted hp
      obtain ⟨hwithin, hstack⟩ := RunTask.nested_act hnested
      rcases hact : (task.act limits.depth ⟨tasks, values⟩).run s' with ⟨f | k, t⟩
      · rw [hact] at hwithin
        exact hwithin
      · rw [hact] at hstack
        exact hstack k rfl

theorem nested_start (depth : Nat) (program : List Stmt) :
  (start program).Nested depth
  := by
  have hplain := RunTask.all_map_exec program
  refine ⟨⟨Nat.zero_le _, Nat.zero_le _⟩, ?_, ?_⟩
  · exact RunTask.leaves_append_plain hplain []
  · exact (RunTask.fits_append_plain hplain []).mpr trivial

end RunPoint

/-! ### Counting in a word -/

namespace RunStats

variable (stats : RunStats)

theorem counter_of_lt {stats : RunStats} (h : stats.steps < Word.half) :
  stats.counter = stats.steps
  := by
  apply Word.toInt_ofInt_of_holds
  rw [Word.holds, decide_eq_true_iff]
  omega

theorem counter_lt :
  stats.counter < Word.half
  := Word.toInt_ofInt_lt _

theorem counter_le_steps :
  stats.counter ≤ stats.steps
  := Word.toInt_ofInt_le (Int.natCast_nonneg _)

end RunStats

theorem RunState.counter_counted_le (s : RunState) :
  s.counted.stats.counter ≤ s.stats.counter + 1
  := Word.toInt_ofInt_succ_le _

/-- The limits that a number of steps passes in the state `s` exactly if the word that counts the
next step is over the limit. -/
def RunLimits.inWord (limits : RunLimits) (s : RunState) : RunLimits :=
  if limits.steps < s.counted.stats.counter then limits
  else { limits with steps := s.stats.steps + 1 }

section

variable {limits : RunLimits} {s : RunState}

theorem RunLimits.depth_inWord (limits : RunLimits) (s : RunState) :
  (limits.inWord s).depth = limits.depth
  := by
  rw [inWord]
  split
  · rfl
  · rfl

theorem RunLimits.inWord_lt_iff :
  (limits.inWord s).steps < s.stats.steps + 1 ↔ limits.steps < s.counted.stats.counter
  := by
  have hle : s.counted.stats.counter ≤ (s.stats.steps + 1 : Nat) := s.counted.stats.counter_le_steps
  rw [inWord]
  split
  · next hover =>
    apply iff_of_true _ hover
    omega
  · next hover => exact iff_of_false (Nat.lt_irrefl _) hover

theorem RunLimits.le_inWord (h : s.stats.steps + 1 ≤ (limits.inWord s).steps) :
  s.counted.stats.counter ≤ limits.steps
  := Int.not_lt.mp (mt inWord_lt_iff.mpr (Nat.not_lt.mpr h))

theorem Run.run_tickWord (limits : RunLimits) (span : Span) (s : RunState) :
  (tickWord limits span).run s = (tick (limits.inWord s) span).run s
  := by
  rw [tickWord, run_count, run_tick]
  simp only [RunLimits.inWord_lt_iff, decide_eq_true_eq]
  rw [RunLimits.inWord]
  split
  · rfl
  · rfl

/-- Before the word wraps around, it counts like a number. -/
theorem Run.run_tickWord_of_lt (h : s.stats.steps + 1 < Word.half) (limits : RunLimits)
    (span : Span) :
  (tickWord limits span).run s = (tick limits span).run s
  := by
  have hcounter : s.counted.stats.counter = (s.stats.steps + 1 : Nat) := RunStats.counter_of_lt h
  rw [tickWord, run_count, run_tick, hcounter]
  simp only [Int.ofNat_lt, decide_eq_true_eq]

/-- No word is over the largest word. -/
theorem Run.run_tickWord_of_half_le (hsteps : Word.half ≤ limits.steps + 1)
    (hcancelled : limits.cancelled = false) (span : Span) :
  (tickWord limits span).run s = (.ok (), s.counted)
  := by
  have hcounter := s.counted.stats.counter_lt
  rw [tickWord, run_count, hcancelled]
  rw [if_neg (by simp only [decide_eq_true_eq]; omega)]
  rfl

end

namespace RunPoint

variable {limits limits' : RunLimits} {p q : RunPoint} {program : List Stmt}

/-- A step whose count is the same within other limits leads to the same point. -/
theorem nextInWord_eq_next (hdepth : limits'.depth = limits.depth)
    (h : ∀ span, (Run.tickWord limits span).run p.state = (Run.tick limits' span).run p.state) :
  p.nextInWord limits = p.next limits'
  := by
  cases p with
  | ended fault s => rfl
  | going k s =>
      obtain ⟨_ | ⟨task, tasks⟩, values⟩ := k
      · rfl
      · rw [nextInWord, next, nextBy, nextBy, RunTask.performInWord, RunTask.perform,
          RunTask.performBy, RunTask.performBy, hdepth]
        cases task.counted? with
        | none => rfl
        | some span =>
            have htick : (Run.tickWord limits span).run s = (Run.tick limits' span).run s := h span
            dsimp only
            rw [Fallible.run_bind, Fallible.run_bind, htick]

theorem moves_nextInWord (limits : RunLimits) (p : RunPoint) :
  p.Moves (limits.inWord p.state) (p.nextInWord limits)
  := by
  rw [nextInWord_eq_next (limits.depth_inWord p.state) fun span => Run.run_tickWord limits span _]
  exact moves_next _ p

/-- The word that counts the steps keeps the limit, and passes it by one exactly at its own
fault. -/
def WithinWord (limits : RunLimits) : RunPoint → Prop
  | going _ s => s.stats.counter ≤ limits.steps
  | ended fault s =>
    s.stats.counter ≤ limits.steps + 1
      ∧ (s.stats.counter = limits.steps + 1 ↔ ∃ f ∈ fault, f.cause.isStepLimit)

/-- A run that ends for another reason than the limit of steps keeps the limit. -/
theorem withinWord_ended {fault : Option Fault} {s : RunState} (h : s.stats.counter ≤ limits.steps)
    (hfault : ∀ f ∈ fault, f.cause.isStepLimit = false) :
  (ended fault s).WithinWord limits
  := by
  refine ⟨by omega, ?_, ?_⟩
  · intro hsteps
    omega
  · rintro ⟨f, hf, hcause⟩
    rw [hfault f hf] at hcause
    cases hcause

/-- A step that is counted in a word keeps the limit in this word. -/
theorem Moves.withinWord (h : p.Moves limits' q) (hlimits : limits' = limits.inWord p.state)
    (hp : p.WithinWord limits) :
  q.WithinWord limits
  := by
  cases h with
  | stay => exact hp
  | finish => exact withinWord_ended hp (by simp)
  | @refuse task tasks values s f hrefuses =>
      obtain rfl : limits' = limits.inWord s := hlimits
      obtain ⟨cause, span, backtrace⟩ := f
      cases hrefuses with
      | limit hlimit =>
          have hover := RunLimits.inWord_lt_iff.mp hlimit
          have hle := s.counter_counted_le
          have hbefore : s.stats.counter ≤ limits.steps := hp
          exact ⟨by omega, fun _ => ⟨_, rfl, rfl⟩, fun _ => by omega⟩
      | cancel hle =>
          exact withinWord_ended (RunLimits.le_inWord hle) (by simp [FaultCause.isStepLimit])
  | @act task tasks values s s' hcounts =>
      have hle : s'.stats.counter ≤ limits.steps := by
        obtain rfl | ⟨rfl, hle⟩ := hcounts
        · exact hp
        · obtain rfl : limits' = limits.inWord s := hlimits
          exact RunLimits.le_inWord hle
      obtain ⟨hsame, hfault⟩ := task.steps_act limits'.depth ⟨tasks, values⟩ s'
      rw [RunStats.counter, ← hsame] at hle
      rcases hact : (task.act limits'.depth ⟨tasks, values⟩).run s' with ⟨f | k, t⟩
      · rw [hact] at hle hfault
        apply withinWord_ended hle
        rintro f' ⟨⟩
        exact hfault f rfl
      · rw [hact] at hle
        exact hle

theorem after_succ (limits : RunLimits) (program : List Stmt) (n : Nat) :
  after limits program (n + 1) = (after limits program n).next limits
  := Function.iterate_succ_apply' _ _ _

theorem afterInWord_succ (limits : RunLimits) (program : List Stmt) (n : Nat) :
  afterInWord limits program (n + 1) = (afterInWord limits program n).nextInWord limits
  := Function.iterate_succ_apply' _ _ _

/-- At every point the word keeps the limit of steps, and the calls that of depth. -/
theorem within_afterInWord (limits : RunLimits) (program : List Stmt) (n : Nat) :
  (afterInWord limits program n).WithinWord limits
    ∧ (afterInWord limits program n).Nested limits.depth
  := by
  induction n with
  | zero => exact ⟨Int.natCast_nonneg limits.steps, nested_start _ program⟩
  | succ n ih =>
      have hmoves := moves_nextInWord limits (afterInWord limits program n)
      have hnested := ih.2
      rw [← limits.depth_inWord (afterInWord limits program n).state] at hnested ⊢
      rw [afterInWord_succ]
      exact ⟨hmoves.withinWord rfl ih.1, hmoves.nested hnested⟩

/-- Below the largest word it makes no difference that the steps are counted in a word. -/
theorem afterInWord_eq_after (h : limits.steps + 1 < Word.half) (program : List Stmt) (n : Nat) :
  afterInWord limits program n = after limits program n
  := by
  induction n with
  | zero => rfl
  | succ n ih =>
      have hwithin : (after limits program n).WithinSteps limits :=
        (Leads.withinSteps ⟨n, rfl⟩ (Nat.zero_le _)).1
      rw [afterInWord_succ, after_succ, ih]
      cases hpoint : after limits program n with
      | ended fault s => rfl
      | going k s =>
          rw [hpoint] at hwithin
          have hle : s.stats.steps ≤ limits.steps := hwithin
          apply nextInWord_eq_next rfl
          exact Run.run_tickWord_of_lt (s := s) (by omega) limits

end RunPoint

/-- Runs are bounded.  Their steps are counted in a word, and a limit that is not positive stands
for the usual one.  With any limit of steps below the largest word a run comes to an end; its result
is the one there, and the word has not wrapped around.  At no point, whatever the limits, is the
word more than one over the limit of steps, nor are there more calls under way than there may be; at
the end the word is over the limit exactly if the run was ended by it. -/
theorem run_is_bounded (maxSteps maxDepth : Int) (cancelled : Bool) (program : List Stmt) :
  let limits := RunLimits.ofRequest maxSteps maxDepth cancelled
  let point := RunPoint.afterInWord limits program
  (maxSteps + 1 < Word.half → ∃ n fault s, point n = .ended fault s
      ∧ runProgram limits program = ⟨s.output, s.stats, fault⟩ ∧ s.stats.counter = s.stats.steps)
    ∧ (∀ n, (point n).state.stats.counter ≤ limits.steps + 1
      ∧ (point n).state.frames.length ≤ limits.depth
      ∧ (point n).state.stats.deepest ≤ limits.depth)
    ∧ ∀ n fault s, point n = .ended fault s →
      (s.stats.counter = limits.steps + 1 ↔ ∃ f ∈ fault, f.cause.isStepLimit)
  := by
  intro limits point
  have hwithin := RunPoint.within_afterInWord limits program
  refine ⟨?_, ?_, ?_⟩
  · intro hmax
    have hsteps : limits.steps + 1 < Word.half := by
      have husual : 1000000 + 1 < Word.half := by decide
      change (if maxSteps ≤ 0 then 1000000 else maxSteps.toNat) + 1 < Word.half
      split
      · exact husual
      · omega
    obtain ⟨n, fault, s, hend, hresult⟩ := RunPoint.exists_end limits program
    have hkept : (ended fault s).WithinSteps limits :=
      hend ▸ (RunPoint.Leads.withinSteps ⟨n, rfl⟩ (Nat.zero_le _)).1
    refine ⟨n, fault, s, ?_, hresult, ?_⟩
    · exact (RunPoint.afterInWord_eq_after hsteps program n).trans hend
    · exact RunStats.counter_of_lt (Nat.lt_of_le_of_lt hkept.1 hsteps)
  · intro n
    refine ⟨?_, (hwithin n).2.withinDepth.frames, (hwithin n).2.withinDepth.deepest⟩
    have hkept := (hwithin n).1
    change (RunPoint.afterInWord limits program n).state.stats.counter ≤ _
    cases hpoint : RunPoint.afterInWord limits program n with
    | going k s =>
        rw [hpoint] at hkept
        exact Int.le_trans hkept (by omega)
    | ended fault s =>
        rw [hpoint] at hkept
        exact hkept.1
  · intro n fault s hend
    have hkept := (hwithin n).1
    change point n |>.WithinWord limits at hkept
    rw [hend] at hkept
    exact hkept.2

/-- Prints a line, and then another one again and again. -/
def endlessPrinting : List Stmt :=
  [.print {} (.literal {} .boolean "true"),
    .while {} (.literal {} .boolean "true") [.print {} (.literal {} .boolean "false")]]

/-- After four steps the limit of three is passed, by one step. -/
theorem endlessPrinting_ends :
  ∃ n f s, RunPoint.afterInWord (.ofRequest 3 1 false) endlessPrinting n = .ended (some f) s
    ∧ f.cause.isStepLimit ∧ s.stats.counter = 4
  := by
  obtain ⟨hends, -, hfault⟩ := run_is_bounded 3 1 false endlessPrinting
  obtain ⟨n, fault, s, hend, hresult, hcounter⟩ := hends (by decide)
  have hsteps : (runProgram (.ofRequest 3 1 false) endlessPrinting).stats.steps = 4 := by decide
  rw [hresult] at hsteps
  change s.stats.steps = 4 at hsteps
  rw [hsteps] at hcounter
  obtain ⟨f, rfl, hlimit⟩ := (hfault n fault s hend).mp hcounter
  exact ⟨n, f, s, hend, hlimit, hcounter⟩

namespace RunPoint

variable {limits : RunLimits} {span : Span} {cond : Expr} {p : RunPoint}

/-- Under the largest word every step is counted and its task done. -/
theorem nextInWord_of_counted {task : RunTask} {tasks : List RunTask} {values : List Value}
    (hcounted : task.counted? = some span) (hsteps : Word.half ≤ limits.steps + 1)
    (hcancelled : limits.cancelled = false) (s : RunState) :
  (going ⟨task :: tasks, values⟩ s).nextInWord limits
    = ofResult ((task.act limits.depth ⟨tasks, values⟩).run s.counted)
  := by
  rw [nextInWord, nextBy, RunTask.performInWord, RunTask.performBy, hcounted]
  dsimp only
  rw [Fallible.run_bind, Run.run_tickWord_of_half_le hsteps hcancelled]

/-- The points of a loop without a body whose condition stays true. -/
inductive Spins (span : Span) (cond : Expr) : RunPoint → Prop
  | enter (s : RunState) : Spins span cond (going ⟨[.exec (.while span cond [])], []⟩ s)
  | ask (s : RunState) : Spins span cond (going ⟨[.eval cond, .test span cond []], []⟩ s)
  | answer (s : RunState) : Spins span cond (going ⟨[.test span cond []], [.boolean true]⟩ s)
  | again (s : RunState) : Spins span cond (going ⟨[.again span cond []], []⟩ s)

theorem Spins.nextInWord {place : Span} (hsteps : Word.half ≤ limits.steps + 1)
    (hcancelled : limits.cancelled = false)
    (h : p.Spins span (.literal place .boolean "true")) :
  (p.nextInWord limits).Spins span (.literal place .boolean "true")
  := by
  cases h with
  | enter s =>
      rw [nextInWord_of_counted rfl hsteps hcancelled]
      exact .ask s.counted
  | ask s => exact .answer s
  | answer s => exact .again s
  | again s =>
      rw [nextInWord_of_counted rfl hsteps hcancelled]
      exact .ask s.counted

/-- A loop that spins has a next point at every point. -/
theorem Spins.exists_going (h : p.Spins span cond) :
  ∃ k s, p = going k s
  := by
  cases h with
  | enter s | ask s | answer s | again s => exact ⟨_, s, rfl⟩

end RunPoint

/-- A loop that goes on without end. -/
def endlessLoop : File := { content := "while (true) \x7b \x7d" }

theorem statements_endlessLoop :
  (parse {} 0 0 endlessLoop.lex).tree.statements
    = [.while ⟨0, 0, 16⟩ (.literal ⟨0, 7, 11⟩ .boolean "true") []]
  := by
  have htokens : fileTokens endlessLoop.lex
      = [⟨.kwWhile, ⟨0, 0, 5⟩, "while"⟩, ⟨.lparen, ⟨0, 6, 7⟩, "("⟩, ⟨.kwTrue, ⟨0, 7, 11⟩, "true"⟩,
          ⟨.rparen, ⟨0, 11, 12⟩, ")"⟩, ⟨.lbrace, ⟨0, 13, 14⟩, [123]⟩,
          ⟨.rbrace, ⟨0, 15, 16⟩, [125]⟩] := by
    decide +kernel
  have hcond : Grammar.IsExpr [⟨.kwTrue, ⟨0, 7, 11⟩, "true"⟩]
      (.literal ⟨0, 7, 11⟩ .boolean "true") :=
    (Grammar.Derives.literal .true).of_le (by decide)
  apply (Parser.parse_of_isProgram rfl rfl _).2
  rw [htokens]
  exact .while rfl rfl rfl hcond rfl rfl .nil rfl

/-- With the largest word as the limit of steps, `endlessLoop` has no last step: the word that
counts them wraps around before it is over the limit. -/
theorem endlessLoop_never_ends :
  ¬ ∃ n fault s, RunPoint.afterInWord (.ofRequest (Word.half - 1) 0 false)
    (parse {} 0 0 endlessLoop.lex).tree.statements n = .ended fault s
  := by
  let limits := RunLimits.ofRequest (Word.half - 1) 0 false
  have hsteps : Word.half ≤ limits.steps + 1 := by decide
  rintro ⟨n, fault, s, hended⟩
  rw [statements_endlessLoop] at hended
  have hspins : (RunPoint.afterInWord limits
      [.while ⟨0, 0, 16⟩ (.literal ⟨0, 7, 11⟩ .boolean "true") []] n).Spins ⟨0, 0, 16⟩
        (.literal ⟨0, 7, 11⟩ .boolean "true") := by
    clear hended
    induction n with
    | zero => exact .enter {}
    | succ n ih =>
        rw [RunPoint.afterInWord_succ]
        exact ih.nextInWord hsteps rfl
  obtain ⟨k, t, hgoing⟩ := hspins.exists_going
  rw [hgoing] at hended
  cases hended

/-! ### Raising the limits -/

/-- Whether a run ended at one of its limits. -/
def FaultCause.isLimit : FaultCause → Bool
  | stepLimit _ | stackOverflow _ => true
  | _ => false

/-- The run ended at one of its limits. -/
def RunResult.AtLimit (r : RunResult) : Prop := ∃ f ∈ r.fault, f.cause.isLimit

instance (r : RunResult) : Decidable r.AtLimit :=
  match h : r.fault with
  | none => .isFalse (by simp [RunResult.AtLimit, h])
  | some f => decidable_of_iff (f.cause.isLimit = true) (by simp [RunResult.AtLimit, h])

/-- Limits of which none is lower, for a run that is cancelled in the same way. -/
structure RunLimits.Raised (limits limits' : RunLimits) : Prop where
  steps : limits.steps ≤ limits'.steps
  depth : limits.depth ≤ limits'.depth
  cancelled : limits'.cancelled = limits.cancelled

/-- The result of doing something in the state `s` is the same, or a limit was reached before
anything was printed. -/
def SameOrCut {α : Type} (s : RunState) (r r' : Except Fault α × RunState) : Prop :=
  r' = r ∨ ∃ f t, r = (.error f, t) ∧ f.cause.isLimit ∧ t.output = s.output

section

variable {limits limits' : RunLimits} {s : RunState} {k : RunStack}

theorem SameOrCut.rfl {α : Type} {r : Except Fault α × RunState} :
  SameOrCut s r r
  := .inl (Eq.refl r)

theorem sameOrCut_findCallee {depth depth' : Nat} (h : depth ≤ depth') (span : Span) (name : Text)
    (nameSpan : Span) (args : Nat) :
  SameOrCut s ((findCallee depth span name nameSpan args).run s)
    ((findCallee depth' span name nameSpan args).run s)
  := by
  rw [findCallee, findCallee, Fallible.run_get_bind, Fallible.run_get_bind]
  cases s.functions.get? name with
  | none => exact .rfl
  | some f =>
      dsimp only
      split
      · exact .rfl
      · split
        · exact .inr ⟨_, s, Eq.refl _, Eq.refl _, Eq.refl _⟩
        · rw [if_neg (by omega)]
          exact .rfl

theorem sameOrCut_begin {depth depth' : Nat} (h : depth ≤ depth') (e : Expr) :
  SameOrCut s ((e.begin depth k).run s) ((e.begin depth' k).run s)
  := by
  cases e with
  | call span name nameSpan args =>
      rw [Expr.begin, Expr.begin, Fallible.run_bind, Fallible.run_bind]
      obtain heq | ⟨f, t, hcut, hlimit, houtput⟩ :=
        sameOrCut_findCallee (s := s) h span name nameSpan args.length
      · rw [heq]
        exact .rfl
      · rw [hcut]
        exact .inr ⟨f, t, Eq.refl _, hlimit, houtput⟩
  | binary span op left right =>
      cases op with
      | _ => exact .rfl
  | _ => exact .rfl

/-- Only the beginning of a call looks at the limit of depth. -/
theorem sameOrCut_act {depth depth' : Nat} (h : depth ≤ depth') (task : RunTask) :
  SameOrCut s ((task.act depth k).run s) ((task.act depth' k).run s)
  := by
  cases task with
  | eval e => exact sameOrCut_begin h e
  | _ => exact .rfl

theorem sameOrCut_perform (h : limits.Raised limits') (task : RunTask) :
  SameOrCut s ((task.perform limits k).run s) ((task.perform limits' k).run s)
  := by
  cases hcounted : task.counted? with
  | none =>
      rw [RunTask.perform_of_none hcounted, RunTask.perform_of_none hcounted]
      exact sameOrCut_act h.depth task
  | some span =>
      rw [RunTask.perform_of_some hcounted, RunTask.perform_of_some hcounted, Fallible.run_bind,
        Fallible.run_bind, Run.run_tick, Run.run_tick, h.cancelled]
      by_cases hlimit : limits.steps < s.stats.steps + 1
      · rw [if_pos hlimit]
        exact .inr ⟨_, _, Eq.refl _, Eq.refl _, Eq.refl _⟩
      · have hlimit' : ¬ limits'.steps < s.stats.steps + 1 := by
          have hsteps := h.steps
          omega
        rw [if_neg hlimit, if_neg hlimit']
        split_ifs
        · exact .rfl
        · exact sameOrCut_act (s := s.counted) h.depth task

end

namespace RunPoint

variable {limits limits' : RunLimits} {p q : RunPoint} {program : List Stmt}

/-- What was printed stays printed. -/
theorem Moves.output (h : p.Moves limits q) :
  p.state.output <+: q.state.output
  := by
  cases h with
  | stay | finish | refuse => exact List.prefix_refl _
  | @act task tasks values s s' hcounts =>
      have houtput := task.output_act limits.depth ⟨tasks, values⟩ s'
      rw [hcounts.output] at houtput
      rw [state_ofResult]
      exact houtput

/-- Raised limits lead to the same point, or the run was cut before anything was printed. -/
theorem next_of_raised (h : limits.Raised limits') (p : RunPoint) :
  p.next limits' = p.next limits
    ∨ ∃ f s, p.next limits = ended (some f) s ∧ f.cause.isLimit ∧ s.output = p.state.output
  := by
  cases p with
  | ended fault s => exact .inl rfl
  | going k s =>
      obtain ⟨_ | ⟨task, tasks⟩, values⟩ := k
      · exact .inl rfl
      · rw [next, next, nextBy, nextBy]
        obtain heq | ⟨f, t, hcut, hlimit, houtput⟩ :=
          sameOrCut_perform (s := s) (k := ⟨tasks, values⟩) h task
        · rw [heq]
          exact .inl rfl
        · rw [hcut]
          exact .inr ⟨f, t, rfl, hlimit, houtput⟩

/-- A run that came to its end stays there. -/
theorem after_of_ended {fault : Option Fault} {s : RunState} {n m : Nat}
    (h : after limits program n = ended fault s) (hle : n ≤ m) :
  after limits program m = ended fault s
  := by
  induction hle with
  | refl => exact h
  | step _ ih =>
      rw [after_succ, ih]
      rfl

/-- Two runs are at the same point as long as no lower limit is reached, and from then on the one
with the raised limits has printed all that the other one has. -/
theorem after_of_raised (h : limits.Raised limits') (program : List Stmt) (n : Nat) :
  after limits' program n = after limits program n
    ∨ ∃ f s, after limits program n = ended (some f) s ∧ f.cause.isLimit
      ∧ s.output <+: (after limits' program n).state.output
  := by
  induction n with
  | zero => exact .inl rfl
  | succ n ih =>
      have hmore := (moves_next limits' (after limits' program n)).output
      rw [after_succ, after_succ]
      obtain hsame | ⟨f, s, hended, hlimit, houtput⟩ := ih
      · rw [hsame] at hmore ⊢
        obtain hnext | ⟨f, s, hcut, hlimit, houtput⟩ := next_of_raised h (after limits program n)
        · exact .inl hnext
        · refine .inr ⟨f, s, hcut, hlimit, ?_⟩
          rw [houtput]
          exact hmore
      · rw [hended]
        exact .inr ⟨f, s, rfl, hlimit, houtput.trans hmore⟩

end RunPoint

/-- Limits only cut runs short.  A run that does not end at one of its limits is the same run under
raised limits, with its output, counts and fault; one that does has printed a first part of what it
prints under raised limits. -/
theorem limits_only_cut_short {limits limits' : RunLimits}
    (hsteps : limits.steps ≤ limits'.steps) (hdepth : limits.depth ≤ limits'.depth)
    (hcancelled : limits'.cancelled = limits.cancelled) (program : List Stmt) :
  (¬ (runProgram limits program).AtLimit → runProgram limits' program = runProgram limits program)
    ∧ ((runProgram limits program).AtLimit →
      (runProgram limits program).output <+: (runProgram limits' program).output)
  := by
  obtain ⟨n, fault, s, hend, hresult⟩ := RunPoint.exists_end limits program
  obtain ⟨n', fault', s', hend', hresult'⟩ := RunPoint.exists_end limits' program
  rw [hresult, hresult']
  -- At the later of the two ends both runs have come to their end.
  have hlast := RunPoint.after_of_ended hend (Nat.le_max_left n n')
  have hlast' := RunPoint.after_of_ended hend' (Nat.le_max_right n n')
  obtain hsame | ⟨f, t, hcut, hlimit, hprefix⟩ :=
    RunPoint.after_of_raised ⟨hsteps, hdepth, hcancelled⟩ program (max n n')
  · rw [hlast, hlast'] at hsame
    cases hsame
    exact ⟨fun _ => rfl, fun _ => List.prefix_refl _⟩
  · rw [hlast] at hcut
    cases hcut
    rw [hlast'] at hprefix
    constructor
    · intro hnot
      cases hnot ⟨f, rfl, hlimit⟩
    · intro _
      exact hprefix

theorem endlessPrinting_cut_short :
  (runProgram { steps := 4, depth := 1 } endlessPrinting).output
      <+: (runProgram { steps := 6, depth := 2 } endlessPrinting).output
    ∧ runProgram { steps := 6, depth := 2 } (endlessPrinting.take 1)
      = runProgram { steps := 4, depth := 1 } (endlessPrinting.take 1)
  := by
  have hcut := @limits_only_cut_short { steps := 4, depth := 1 } { steps := 6, depth := 2 }
    (by decide) (by decide) rfl
  constructor
  · apply (hcut endlessPrinting).2
    decide
  · apply (hcut (endlessPrinting.take 1)).1
    decide

end ThreeAddress
