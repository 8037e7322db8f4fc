import ThreeAddress.Trace.Tracer

/-!
# Well nested traces

Whoever opens and closes spans draws a number for each, passes on an event that begins it, and later
one that ends it.  `Orderly` says what the events passed on so far look like if nobody ends a span
before those inside of it; when nothing is open any more, such a log is well nested.

Several may open and close spans at once, below spans that stay open.  Each of them has a
`TraceHand`, the spans it has open and the number it has drawn; `Held` ties all hands to the log.
-/

namespace ThreeAddress

/-- The events passed to a tracer, the oldest first. -/
abbrev TraceLog := List TraceEvent

/-- A span and its parent. -/
structure TraceMark where
  span : Nat
  parent : Nat

namespace TraceEvent

/-- The span of an event and its parent. -/
def mark (e : TraceEvent) : TraceMark := ⟨e.span, e.parent⟩

/-- The event begins the span. -/
def Begins (e : TraceEvent) (span : Nat) : Prop := e.kind = .begins ∧ e.span = span

/-- The event ends the span. -/
def Ends (e : TraceEvent) (span : Nat) : Prop := e.kind = .ends ∧ e.span = span

end TraceEvent

namespace TraceLog

/-- The events of a span. -/
def about (log : TraceLog) (span : Nat) : TraceLog := log.filter (·.span == span)

/-- Spans below `outer` are well nested.  Each begins once, and then ends once; its parent is
`outer`, or begins before it and ends after it. -/
structure WellNested (outer : Nat) (log : TraceLog) : Prop where
  paired : ∀ e ∈ log, ∃ b f, log.about e.span = [b, f] ∧ b.Begins e.span ∧ f.Ends e.span
    ∧ b.parent = e.parent ∧ f.parent = e.parent
  enclosed : ∀ e ∈ log, e.parent ≠ outer → ∃ p b f q, [p, b, f, q].Sublist log
    ∧ p.Begins e.parent ∧ b.Begins e.span ∧ f.Ends e.span ∧ q.Ends e.parent
  newer : ∀ e ∈ log, outer < e.span

/-! ### Open spans -/

/-- The span has begun and not ended. -/
def Open (log : TraceLog) (m : TraceMark) : Prop :=
  ∃ b, log.about m.span = [b] ∧ b.kind = .begins ∧ b.mark = m

/-- The span has begun and ended. -/
def Closed (log : TraceLog) (m : TraceMark) : Prop :=
  ∃ b f, log.about m.span = [b, f] ∧ b.Begins m.span ∧ f.Ends m.span
    ∧ b.parent = m.parent ∧ f.parent = m.parent

/-- What has been passed on, one event after another: a span begins if it is new and its parent is
open; it ends if it is open and no span inside of it is. -/
inductive Orderly (outer : Nat) : TraceLog → Prop
  | nothing : Orderly outer []
  | begins {log : TraceLog} {e : TraceEvent} (h : Orderly outer log) (hkind : e.kind = .begins)
    (hnew : log.about e.span = [])
    (hparent : e.parent = outer ∨ ∃ m, log.Open m ∧ m.span = e.parent) : Orderly outer (log ++ [e])
  | ends {log : TraceLog} {e : TraceEvent} (h : Orderly outer log) (hkind : e.kind = .ends)
    (hopen : log.Open e.mark) (hinner : ∀ m, log.Open m → m.parent ≠ e.span) :
    Orderly outer (log ++ [e])

variable {outer : Nat} {log : TraceLog} {e : TraceEvent} {m m' : TraceMark}

theorem about_concat_self (log : TraceLog) (e : TraceEvent) :
  about (log ++ [e]) e.span = log.about e.span ++ [e]
  := by simp [about, List.filter_append]

theorem about_concat_of_ne {span : Nat} (log : TraceLog) (h : e.span ≠ span) :
  about (log ++ [e]) span = log.about span
  := by simp [about, List.filter_append, h]

theorem mem_about {x : TraceEvent} {span : Nat} :
  x ∈ log.about span ↔ x ∈ log ∧ x.span = span
  := by simp [about]

/-- A new number is the number of no event. -/
theorem ne_of_about_eq_nil {x : TraceEvent} {span : Nat} (h : log.about span = []) (hx : x ∈ log) :
  x.span ≠ span
  := by
  rintro rfl
  have hmem := mem_about.mpr ⟨hx, rfl⟩
  rw [h] at hmem
  cases hmem

theorem Open.exists_mem (h : log.Open m) :
  ∃ b ∈ log, b.Begins m.span ∧ b.mark = m
  := by
  obtain ⟨b, habout, hkind, rfl⟩ := h
  obtain ⟨hb, -⟩ := mem_about.mp (habout ▸ List.mem_singleton_self b)
  exact ⟨b, hb, ⟨hkind, rfl⟩, rfl⟩

/-- An open span has one parent. -/
theorem Open.eq (h : log.Open m) (h' : log.Open m') (heq : m.span = m'.span) :
  m = m'
  := by
  obtain ⟨b, habout, -, rfl⟩ := h
  obtain ⟨b', habout', -, rfl⟩ := h'
  rw [heq, habout'] at habout
  cases habout
  rfl

theorem Open.ne_of_new (h : log.Open m) (hnew : log.about e.span = []) :
  e.span ≠ m.span
  := by
  intro heq
  obtain ⟨b, habout, -⟩ := h
  rw [← heq, hnew] at habout
  cases habout

theorem open_concat_of_ne (h : e.span ≠ m.span) :
  Open (log ++ [e]) m ↔ log.Open m
  := by rw [Open, Open, about_concat_of_ne log h]

/-- After its first event a span is open. -/
theorem open_begun (hkind : e.kind = .begins) (hnew : log.about e.span = []) :
  Open (log ++ [e]) e.mark
  := by
  refine ⟨e, ?_, hkind, rfl⟩
  rw [TraceEvent.mark, about_concat_self, hnew, List.nil_append]

/-- After the event that ends it a span is closed. -/
theorem Open.closed (h : log.Open e.mark) (hkind : e.kind = .ends) :
  Closed (log ++ [e]) e.mark
  := by
  obtain ⟨b, habout, hbegins, hmark⟩ := h
  obtain ⟨hspan, hparent⟩ := TraceMark.mk.inj hmark
  refine ⟨b, e, ?_, ⟨hbegins, hspan⟩, ⟨hkind, rfl⟩, hparent, rfl⟩
  rw [TraceEvent.mark] at habout ⊢
  rw [about_concat_self, habout, List.singleton_append]

theorem Closed.not_open (h : log.Closed m) (heq : m'.span = m.span) :
  ¬ log.Open m'
  := by
  rintro ⟨b', habout', -⟩
  obtain ⟨b, f, habout, -⟩ := h
  rw [heq, habout] at habout'
  cases habout'

theorem Closed.concat (h : log.Closed m) (hne : e.span ≠ m.span) :
  Closed (log ++ [e]) m
  := by
  rw [Closed, about_concat_of_ne log hne]
  exact h

theorem open_concat_begins (hkind : e.kind = .begins) (hnew : log.about e.span = []) :
  Open (log ++ [e]) m ↔ m = e.mark ∨ log.Open m
  := by
  by_cases hspan : e.span = m.span
  · constructor
    · exact fun h => .inl (h.eq (open_begun hkind hnew) hspan.symm)
    · rintro (rfl | h)
      · exact open_begun hkind hnew
      · exact absurd hspan (h.ne_of_new hnew)
  · have hne : m ≠ e.mark := fun h => hspan (congrArg TraceMark.span h).symm
    rw [open_concat_of_ne hspan, or_iff_right hne]

theorem open_concat_ends (hkind : e.kind = .ends) (hopen : log.Open e.mark) :
  Open (log ++ [e]) m ↔ log.Open m ∧ m ≠ e.mark
  := by
  by_cases hspan : e.span = m.span
  · apply iff_of_false ((hopen.closed hkind).not_open hspan.symm)
    rintro ⟨h, hne⟩
    exact hne (h.eq hopen hspan.symm)
  · have hne : m ≠ e.mark := fun h => hspan (congrArg TraceMark.span h).symm
    rw [open_concat_of_ne hspan, and_iff_left hne]

/-- Every span is open or closed. -/
theorem Orderly.open_or_closed (h : log.Orderly outer) {x : TraceEvent} (hx : x ∈ log) :
  log.Open x.mark ∨ log.Closed x.mark
  := by
  induction h with
  | nothing => cases hx
  | @begins log e h hkind hnew hparent ih =>
      obtain hx | rfl := (List.mem_append.mp hx).imp_right List.mem_singleton.mp
      · have hne : e.span ≠ x.mark.span := (ne_of_about_eq_nil hnew hx).symm
        exact (ih hx).imp (open_concat_of_ne hne).mpr (·.concat hne)
      · exact .inl (open_begun hkind hnew)
  | @ends log e h hkind hopen hinner ih =>
      obtain hx | rfl := (List.mem_append.mp hx).imp_right List.mem_singleton.mp
      · by_cases hne : e.span = x.mark.span
        · -- The event that begins the span that ends is the only one of it.
          obtain hx | ⟨b, f, habout, -⟩ := ih hx
          · rw [hx.eq hopen hne.symm]
            exact .inr (hopen.closed hkind)
          · obtain ⟨b', habout', -⟩ := hopen
            rw [TraceEvent.mark, hne, habout] at habout'
            cases habout'
        · exact (ih hx).imp (open_concat_of_ne hne).mpr (·.concat hne)
      · exact .inr (hopen.closed hkind)

/-- How far a span with a parent has come. -/
inductive Enclosed (log : TraceLog) (m : TraceMark) : Prop
  | inside {p b : TraceEvent} (hsub : [p, b].Sublist log) (hp : p.Begins m.parent)
    (hb : b.Begins m.span) (hopen : log.Open m)
    (hparent : ∃ m', log.Open m' ∧ m'.span = m.parent)
  | ended {p b f : TraceEvent} (hsub : [p, b, f].Sublist log) (hp : p.Begins m.parent)
    (hb : b.Begins m.span) (hf : f.Ends m.span)
    (hparent : ∃ m', log.Open m' ∧ m'.span = m.parent)
  | around {p b f q : TraceEvent} (hsub : [p, b, f, q].Sublist log) (hp : p.Begins m.parent)
    (hb : b.Begins m.span) (hf : f.Ends m.span) (hq : q.Ends m.parent)

/-- A new span does not disturb the others. -/
theorem Enclosed.begins (h : log.Enclosed m) (hnew : log.about e.span = []) :
  Enclosed (log ++ [e]) m
  := by
  have hkeep : ∀ m', log.Open m' → Open (log ++ [e]) m' :=
    fun m' hopen => (open_concat_of_ne (hopen.ne_of_new hnew)).mpr hopen
  cases h with
  | inside hsub hp hb hopen hparent =>
      obtain ⟨m', hopen', heq⟩ := hparent
      exact .inside (hsub.trans (List.sublist_append_left ..)) hp hb (hkeep m hopen)
        ⟨m', hkeep m' hopen', heq⟩
  | ended hsub hp hb hf hparent =>
      obtain ⟨m', hopen', heq⟩ := hparent
      exact .ended (hsub.trans (List.sublist_append_left ..)) hp hb hf ⟨m', hkeep m' hopen', heq⟩
  | around hsub hp hb hf hq => exact .around (hsub.trans (List.sublist_append_left ..)) hp hb hf hq

/-- A span that ends comes one step further, and so do those inside of it. -/
theorem Enclosed.ends (h : log.Enclosed m) (hkind : e.kind = .ends)
    (hinner : ∀ m, log.Open m → m.parent ≠ e.span) :
  Enclosed (log ++ [e]) m
  := by
  have hself : [e].Sublist [e] := List.Sublist.refl _
  cases h with
  | inside hsub hp hb hopen' hparent =>
      obtain ⟨m', hm', heq⟩ := hparent
      have hne : e.span ≠ m'.span := heq ▸ (hinner m hopen').symm
      have hparent : ∃ m', Open (log ++ [e]) m' ∧ m'.span = m.parent :=
        ⟨m', (open_concat_of_ne hne).mpr hm', heq⟩
      by_cases hspan : e.span = m.span
      · exact .ended (hsub.append hself) hp hb ⟨hkind, hspan⟩ hparent
      · exact .inside (hsub.trans (List.sublist_append_left ..)) hp hb
          ((open_concat_of_ne hspan).mpr hopen') hparent
  | ended hsub hp hb hf hparent =>
      obtain ⟨m', hm', heq⟩ := hparent
      by_cases hspan : e.span = m'.span
      · exact .around (hsub.append hself) hp hb hf ⟨hkind, hspan.trans heq⟩
      · exact .ended (hsub.trans (List.sublist_append_left ..)) hp hb hf
          ⟨m', (open_concat_of_ne hspan).mpr hm', heq⟩
  | around hsub hp hb hf hq => exact .around (hsub.trans (List.sublist_append_left ..)) hp hb hf hq

theorem Orderly.enclosed (h : log.Orderly outer) {x : TraceEvent} (hx : x ∈ log)
    (hparent : x.parent ≠ outer) :
  log.Enclosed x.mark
  := by
  induction h generalizing x with
  | nothing => cases hx
  | @begins log e h hkind hnew hbelow ih =>
      obtain hx | rfl := (List.mem_append.mp hx).imp_right List.mem_singleton.mp
      · exact (ih hx hparent).begins hnew
      · obtain ⟨m, hopen, heq⟩ := hbelow.resolve_left hparent
        obtain ⟨p, hp, ⟨hbegins, hspan⟩, -⟩ := hopen.exists_mem
        refine .inside ((List.singleton_sublist.mpr hp).append (List.Sublist.refl [x]))
          ⟨hbegins, hspan.trans heq⟩ ⟨hkind, rfl⟩ (open_begun hkind hnew) ⟨m, ?_, heq⟩
        exact (open_concat_of_ne (hopen.ne_of_new hnew)).mpr hopen
  | @ends log e h hkind hopen hinner ih =>
      obtain hx | rfl := (List.mem_append.mp hx).imp_right List.mem_singleton.mp
      · exact (ih hx hparent).ends hkind hinner
      · obtain ⟨b, hb, -, hmark⟩ := hopen.exists_mem
        obtain ⟨-, heq⟩ := TraceMark.mk.inj hmark
        have henclosed := (ih hb (heq ▸ hparent)).ends hkind hinner
        rwa [hmark] at henclosed

/-- When nothing is open any more, an orderly log is well nested. -/
theorem Orderly.wellNested (h : log.Orderly outer) (hopen : ∀ m, ¬ log.Open m)
    (hnewer : ∀ e ∈ log, outer < e.span) :
  log.WellNested outer
  := by
  refine ⟨?_, ?_, hnewer⟩
  · intro e he
    exact (h.open_or_closed he).resolve_left (hopen _)
  · intro e he hparent
    cases h.enclosed he hparent with
    | inside _ _ _ hopen' _ => exact absurd hopen' (hopen _)
    | ended _ _ _ _ hparent =>
        obtain ⟨m', hopen', -⟩ := hparent
        exact absurd hopen' (hopen _)
    | around hsub hp hb hf hq => exact ⟨_, _, _, _, hsub, hp, hb, hf, hq⟩

end TraceLog

/-! ### Several hands -/

namespace TraceMark

/-- The innermost of some spans, or what is around them. -/
def innermost (outer : Nat) : List TraceMark → Nat
  | [] => outer
  | m :: _ => m.span

/-- The parent of each span is the one before it; that of the first is `outer`. -/
inductive Linked (outer : Nat) : List TraceMark → Prop
  | nil : Linked outer []
  | cons {m : TraceMark} {ms : List TraceMark} (h : Linked outer ms)
    (hparent : m.parent = innermost outer ms) : Linked outer (m :: ms)

theorem innermost_eq_or_mem (outer : Nat) (ms : List TraceMark) :
  innermost outer ms = outer ∨ innermost outer ms ∈ ms.map (·.span)
  := by
  cases ms with
  | nil => exact .inl rfl
  | cons m ms => exact .inr List.mem_cons_self

theorem Linked.parent_eq_or_mem {outer : Nat} {ms : List TraceMark} (h : Linked outer ms)
    {m : TraceMark} (hm : m ∈ ms) :
  m.parent = outer ∨ m.parent ∈ ms.map (·.span)
  := by
  induction h with
  | nil => cases hm
  | @cons m' ms h hparent ih =>
      rw [List.map_cons, List.mem_cons]
      obtain rfl | hm := List.mem_cons.mp hm
      · rw [hparent]
        exact (innermost_eq_or_mem outer ms).imp_right .inr
      · exact (ih hm).imp_right .inr

end TraceMark

/-- The spans that someone has open, the innermost first, and the number drawn for the next one. -/
structure TraceHand where
  spans : List TraceMark := []
  drawn : Option Nat := none

namespace TraceHand

/-- The numbers of a hand. -/
def numbers (h : TraceHand) : List Nat := h.drawn.toList ++ h.spans.map (·.span)

/-- What passing on an event does to a hand: a span begins with the number drawn, below the
innermost one, or the innermost one ends. -/
inductive Plays (outer : Nat) (e : TraceEvent) : TraceHand → TraceHand → Prop
  | begins {ms : List TraceMark} (hkind : e.kind = .begins)
    (hparent : e.parent = TraceMark.innermost outer ms) :
    Plays outer e { spans := ms, drawn := some e.span } { spans := e.mark :: ms }
  | ends {ms : List TraceMark} (hkind : e.kind = .ends) :
    Plays outer e { spans := e.mark :: ms } { spans := ms }

/-- The spans that are open, those of the base and those of the hands. -/
def allSpans (base : List TraceMark) (hands : List TraceHand) : List TraceMark :=
  base ++ hands.flatMap (·.spans)

/-- The numbers of the base and of all hands. -/
def allNumbers (base : List TraceMark) (hands : List TraceHand) : List Nat :=
  base.map (·.span) ++ hands.flatMap numbers

variable {outer : Nat} {base : List TraceMark} {before after : List TraceHand} {h h' : TraceHand}

theorem perm_allSpans {m : TraceMark} (heq : h'.spans = m :: h.spans) :
  (allSpans base (before ++ h' :: after)).Perm (m :: allSpans base (before ++ h :: after))
  := by
  simp only [allSpans, List.flatMap_append, List.flatMap_cons, heq, List.cons_append]
  rw [← List.append_assoc, ← List.append_assoc]
  exact List.perm_middle

theorem perm_allNumbers {n : Nat} (heq : h'.numbers = n :: h.numbers) :
  (allNumbers base (before ++ h' :: after)).Perm (n :: allNumbers base (before ++ h :: after))
  := by
  simp only [allNumbers, List.flatMap_append, List.flatMap_cons, heq, List.cons_append]
  rw [← List.append_assoc, ← List.append_assoc]
  exact List.perm_middle

theorem span_mem_allNumbers {hands : List TraceHand} {m : TraceMark}
    (hm : m ∈ allSpans base hands) :
  m.span ∈ allNumbers base hands
  := by
  rw [allNumbers]
  obtain hm | hm := List.mem_append.mp hm
  · exact List.mem_append_left _ (List.mem_map_of_mem hm)
  · obtain ⟨h, hh, hm⟩ := List.mem_flatMap.mp hm
    apply List.mem_append_right
    exact List.mem_flatMap.mpr ⟨h, hh, List.mem_append_right _ (List.mem_map_of_mem hm)⟩

theorem drawn_mem_allNumbers {hands : List TraceHand} (hh : h ∈ hands) {n : Nat}
    (hn : n ∈ h.drawn) :
  n ∈ allNumbers base hands
  := by
  apply List.mem_append_right
  exact List.mem_flatMap.mpr ⟨h, hh, List.mem_append_left _ (Option.mem_toList.mpr hn)⟩

/-- A hand in the place of another one is new, or stood there before. -/
theorem eq_or_mem_of_mem {x : TraceHand} (hx : x ∈ before ++ h' :: after) (h : TraceHand) :
  x = h' ∨ x ∈ before ++ h :: after
  := by
  obtain hx | hx := List.mem_append.mp hx
  · exact .inr (List.mem_append_left _ hx)
  · refine (List.mem_cons.mp hx).imp_right fun hx => ?_
    exact List.mem_append_right _ (List.mem_cons_of_mem _ hx)

/-- What is around a span of a hand is open, or the outermost. -/
theorem eq_or_exists_span {hands : List TraceHand} (hh : h ∈ hands) {n : Nat}
    (hn : n = TraceMark.innermost outer base ∨ n ∈ h.spans.map (·.span)) :
  n = outer ∨ ∃ m ∈ allSpans base hands, m.span = n
  := by
  obtain rfl | hn := hn
  · refine (TraceMark.innermost_eq_or_mem outer base).imp_right fun hmem => ?_
    obtain ⟨m, hm, heq⟩ := List.mem_map.mp hmem
    exact ⟨m, List.mem_append_left _ hm, heq⟩
  · obtain ⟨m, hm, heq⟩ := List.mem_map.mp hn
    exact .inr ⟨m, List.mem_append_right _ (List.mem_flatMap.mpr ⟨h, hh, hm⟩), heq⟩

/-- The parent of an open span is open, or the outermost. -/
theorem parent_eq_or_exists_span {hands : List TraceHand} (hbase : TraceMark.Linked outer base)
    (hlinked : ∀ h ∈ hands, TraceMark.Linked (TraceMark.innermost outer base) h.spans)
    {m : TraceMark} (hm : m ∈ allSpans base hands) :
  m.parent = outer ∨ ∃ m' ∈ allSpans base hands, m'.span = m.parent
  := by
  obtain hm | hm := List.mem_append.mp hm
  · refine (hbase.parent_eq_or_mem hm).imp_right fun hmem => ?_
    obtain ⟨m', hm', heq⟩ := List.mem_map.mp hmem
    exact ⟨m', List.mem_append_left _ hm', heq⟩
  · obtain ⟨h, hh, hm⟩ := List.mem_flatMap.mp hm
    exact eq_or_exists_span hh ((hlinked h hh).parent_eq_or_mem hm)

end TraceHand

namespace TraceLog

open TraceHand

/-- The open spans are those of the base and those of the hands, which are below it.  No number is
used twice, and none is newer than `last`. -/
structure Held (outer : Nat) (base : List TraceMark) (hands : List TraceHand) (last : Nat)
    (log : TraceLog) : Prop where
  orderly : log.Orderly outer
  isOpen : ∀ m, log.Open m ↔ m ∈ allSpans base hands
  nodup : (allNumbers base hands).Nodup
  bounds : ∀ n ∈ allNumbers base hands, outer < n ∧ n ≤ last
  logged : ∀ e ∈ log, outer < e.span ∧ e.span ≤ last
  unused : ∀ h ∈ hands, ∀ n ∈ h.drawn, log.about n = []
  linked_base : TraceMark.Linked outer base
  linked : ∀ h ∈ hands, TraceMark.Linked (TraceMark.innermost outer base) h.spans

variable {outer last : Nat} {base : List TraceMark} {before after : List TraceHand}
  {log : TraceLog} {e : TraceEvent} {h h' : TraceHand}

/-- Nothing has been passed on. -/
theorem held_nil (outer last : Nat) :
  Held outer [] [{}] last []
  where
  orderly := .nothing
  isOpen m := by simp [Open, about, allSpans]
  nodup := List.nodup_nil
  bounds := by simp [allNumbers, numbers]
  logged := by simp
  unused := by simp
  linked_base := .nil
  linked := List.forall_mem_singleton.mpr .nil

/-- A hand draws the next number. -/
theorem Held.draw {ms : List TraceMark}
    (hheld : log.Held outer base (before ++ { spans := ms } :: after) last) (hle : outer ≤ last) :
  log.Held outer base (before ++ { spans := ms, drawn := some (last + 1) } :: after) (last + 1)
  := by
  have hspans : ∀ m,
      m ∈ allSpans base (before ++ { spans := ms, drawn := some (last + 1) } :: after)
        ↔ m ∈ allSpans base (before ++ { spans := ms } :: after) := by
    simp [allSpans]
  have hnumbers : (allNumbers base
      (before ++ { spans := ms, drawn := some (last + 1) } :: after)).Perm
      ((last + 1) :: allNumbers base (before ++ { spans := ms } :: after)) :=
    perm_allNumbers rfl
  constructor
  case orderly => exact hheld.orderly
  case isOpen => exact fun m => (hheld.isOpen m).trans (hspans m).symm
  case nodup =>
    rw [hnumbers.nodup_iff, List.nodup_cons]
    refine ⟨fun hmem => ?_, hheld.nodup⟩
    have := (hheld.bounds _ hmem).2
    omega
  case bounds =>
    intro n hn
    obtain rfl | hn := List.mem_cons.mp (hnumbers.mem_iff.mp hn)
    · omega
    · have := hheld.bounds n hn
      omega
  case logged =>
    intro e he
    have := hheld.logged e he
    omega
  case unused =>
    intro x hx n hn
    obtain rfl | hx := eq_or_mem_of_mem hx { spans := ms }
    · cases hn
      apply List.filter_eq_nil_iff.mpr
      intro e he
      have := (hheld.logged e he).2
      simp only [beq_iff_eq]
      omega
    · exact hheld.unused x hx n hn
  case linked_base => exact hheld.linked_base
  case linked =>
    intro x hx
    obtain rfl | hx := eq_or_mem_of_mem hx { spans := ms }
    · exact hheld.linked { spans := ms } (List.mem_append_right _ List.mem_cons_self)
    · exact hheld.linked x hx

/-- A hand begins a span. -/
theorem Held.begins {ms : List TraceMark} (hkind : e.kind = .begins)
    (hparent : e.parent = TraceMark.innermost (TraceMark.innermost outer base) ms)
    (hheld : log.Held outer base (before ++ { spans := ms, drawn := some e.span } :: after) last) :
  Held outer base (before ++ { spans := e.mark :: ms } :: after) last (log ++ [e])
  := by
  let h : TraceHand := { spans := ms, drawn := some e.span }
  have hmem : h ∈ before ++ h :: after := List.mem_append_right _ List.mem_cons_self
  have hspans : (allSpans base (before ++ { spans := e.mark :: ms } :: after)).Perm
      (e.mark :: allSpans base (before ++ h :: after)) := perm_allSpans rfl
  have hnumbers : allNumbers base (before ++ { spans := e.mark :: ms } :: after)
      = allNumbers base (before ++ h :: after) := by
    simp [allNumbers, numbers, h, TraceEvent.mark]
  have hnew : log.about e.span = [] := hheld.unused h hmem e.span rfl
  constructor
  case orderly =>
    refine hheld.orderly.begins hkind hnew ?_
    rw [hparent]
    refine (eq_or_exists_span hmem (TraceMark.innermost_eq_or_mem _ _)).imp_right ?_
    rintro ⟨m, hm, heq⟩
    exact ⟨m, (hheld.isOpen m).mpr hm, heq⟩
  case isOpen =>
    intro m
    rw [open_concat_begins hkind hnew, hspans.mem_iff, List.mem_cons, hheld.isOpen]
  case nodup =>
    rw [hnumbers]
    exact hheld.nodup
  case bounds =>
    rw [hnumbers]
    exact hheld.bounds
  case logged =>
    have hself := hheld.bounds e.span (drawn_mem_allNumbers hmem rfl)
    exact List.forall_mem_append.mpr ⟨hheld.logged, List.forall_mem_singleton.mpr hself⟩
  case unused =>
    intro x hx n hn
    have hapart : (allNumbers base (before ++ h :: after)).Perm
        (e.span :: allNumbers base (before ++ { spans := ms } :: after)) := perm_allNumbers rfl
    obtain rfl | hx := eq_or_mem_of_mem hx { spans := ms }
    · cases hn
    · have hne : e.span ≠ n := by
        rintro rfl
        have hnodup := hheld.nodup
        rw [hapart.nodup_iff, List.nodup_cons] at hnodup
        exact hnodup.1 (drawn_mem_allNumbers hx hn)
      rw [about_concat_of_ne log hne]
      obtain rfl | hx := eq_or_mem_of_mem hx h
      · cases hn
      · exact hheld.unused x hx n hn
  case linked_base => exact hheld.linked_base
  case linked =>
    intro x hx
    obtain rfl | hx := eq_or_mem_of_mem hx h
    · exact .cons (hheld.linked h hmem) hparent
    · exact hheld.linked x hx

/-- A hand ends its innermost span. -/
theorem Held.ends {ms : List TraceMark} (hkind : e.kind = .ends)
    (hheld : log.Held outer base (before ++ { spans := e.mark :: ms } :: after) last) :
  Held outer base (before ++ { spans := ms } :: after) last (log ++ [e])
  := by
  let h : TraceHand := { spans := e.mark :: ms }
  let h' : TraceHand := { spans := ms }
  have hmem : h ∈ before ++ h :: after := List.mem_append_right _ List.mem_cons_self
  have hmem' : h' ∈ before ++ h' :: after := List.mem_append_right _ List.mem_cons_self
  have hspans : (allSpans base (before ++ h :: after)).Perm
      (e.mark :: allSpans base (before ++ h' :: after)) := perm_allSpans rfl
  have hnumbers : (allNumbers base (before ++ h :: after)).Perm
      (e.span :: allNumbers base (before ++ h' :: after)) := perm_allNumbers rfl
  obtain ⟨hfresh, hnodup⟩ := List.nodup_cons.mp (hnumbers.nodup_iff.mp hheld.nodup)
  obtain ⟨hself, hbounds⟩ :=
    List.forall_mem_cons.mp fun n hn => hheld.bounds n (hnumbers.mem_iff.mpr hn)
  have hopen : log.Open e.mark :=
    (hheld.isOpen _).mpr (hspans.mem_iff.mpr List.mem_cons_self)
  obtain ⟨hms, hparent⟩ : TraceMark.Linked (TraceMark.innermost outer base) ms
      ∧ e.mark.parent = TraceMark.innermost (TraceMark.innermost outer base) ms := by
    cases hheld.linked h hmem with
    | cons hms hparent => exact ⟨hms, hparent⟩
  have hlinked : ∀ x ∈ before ++ h' :: after,
      TraceMark.Linked (TraceMark.innermost outer base) x.spans := by
    intro x hx
    obtain rfl | hx := eq_or_mem_of_mem hx h
    · exact hms
    · exact hheld.linked x hx
  constructor
  case orderly =>
    refine hheld.orderly.ends hkind hopen fun m hm heq => ?_
    have hleft : m.parent = outer
        ∨ ∃ m' ∈ allSpans base (before ++ h' :: after), m'.span = m.parent := by
      obtain rfl | hm := List.mem_cons.mp (hspans.mem_iff.mp ((hheld.isOpen m).mp hm))
      · rw [hparent]
        exact eq_or_exists_span hmem' (TraceMark.innermost_eq_or_mem _ _)
      · exact parent_eq_or_exists_span hheld.linked_base hlinked hm
    obtain houter | ⟨m', hm', hspan⟩ := hleft
    · omega
    · exact hfresh (heq ▸ hspan ▸ span_mem_allNumbers hm')
  case isOpen =>
    intro m
    have hne : e.mark ∉ allSpans base (before ++ h' :: after) :=
      fun hmem => hfresh (span_mem_allNumbers hmem)
    rw [open_concat_ends hkind hopen, hheld.isOpen, hspans.mem_iff, List.mem_cons]
    constructor
    · exact fun ⟨hm, hother⟩ => hm.resolve_left hother
    · exact fun hm => ⟨.inr hm, fun heq => hne (heq ▸ hm)⟩
  case nodup => exact hnodup
  case bounds => exact hbounds
  case logged =>
    exact List.forall_mem_append.mpr ⟨hheld.logged, List.forall_mem_singleton.mpr hself⟩
  case unused =>
    intro x hx n hn
    have hne : e.span ≠ n := by
      rintro rfl
      exact hfresh (drawn_mem_allNumbers hx hn)
    rw [about_concat_of_ne log hne]
    obtain rfl | hx := eq_or_mem_of_mem hx h
    · cases hn
    · exact hheld.unused x hx n hn
  case linked_base => exact hheld.linked_base
  case linked => exact hlinked

/-- A hand passes on an event. -/
theorem Held.play (hheld : log.Held outer base (before ++ h :: after) last)
    (hplays : h.Plays (TraceMark.innermost outer base) e h') :
  Held outer base (before ++ h' :: after) last (log ++ [e])
  := by
  cases hplays with
  | begins hkind hparent => exact hheld.begins hkind hparent
  | ends hkind => exact hheld.ends hkind

/-- What is open below empty hands is what one hand has open. -/
theorem held_iff_of_empty {hands : List TraceHand} (hempty : ∀ h ∈ hands, h = {}) :
  log.Held outer base hands last ↔ log.Held outer [] [{ spans := base }] last
  := by
  have hspans : allSpans base hands = allSpans [] [{ spans := base }] := by
    have hnone : hands.flatMap (·.spans) = [] :=
      List.flatMap_eq_nil_iff.mpr fun h hh => by rw [hempty h hh]
    simp [allSpans, hnone]
  have hnumbers : allNumbers base hands = allNumbers [] [{ spans := base }] := by
    have hnone : hands.flatMap numbers = [] :=
      List.flatMap_eq_nil_iff.mpr fun h hh => by rw [hempty h hh]; rfl
    simp [allNumbers, hnone, numbers]
  constructor
  · intro hheld
    exact
      { orderly := hheld.orderly
        isOpen := hspans ▸ hheld.isOpen
        nodup := hnumbers ▸ hheld.nodup
        bounds := hnumbers ▸ hheld.bounds
        logged := hheld.logged
        unused := by simp
        linked_base := .nil
        linked := List.forall_mem_singleton.mpr hheld.linked_base }
  · intro hheld
    exact
      { orderly := hheld.orderly
        isOpen := hspans ▸ hheld.isOpen
        nodup := hnumbers ▸ hheld.nodup
        bounds := hnumbers ▸ hheld.bounds
        logged := hheld.logged
        unused := fun h hh => by simp [hempty h hh]
        linked_base := hheld.linked _ (List.mem_singleton_self _)
        linked := fun h hh => by rw [hempty h hh]; exact .nil }

/-- When all is over, the log is well nested. -/
theorem Held.wellNested (hheld : log.Held outer [] [{}] last) :
  log.WellNested outer
  := by
  refine hheld.orderly.wellNested (fun m hm => ?_) fun e he => (hheld.logged e he).1
  cases (hheld.isOpen m).mp hm

end TraceLog

end ThreeAddress
