import Mathlib.Data.List.Forall2
import ThreeAddress.Trace.Tracer

/-!
# A ring keeps the newest events

What a ring shows is a window on the events given to it: a push appends an event, and drops the
oldest one if there is no room left.  So what is shown after any run is the end of all events that
were let through, each with the number that it was given.
-/

namespace ThreeAddress

namespace TraceRing

/-- The last events, at most `n` of them. -/
def newest (n : Nat) (es : List TraceEvent) : List TraceEvent := es.drop (es.length - n)

theorem newest_of_le {n : Nat} {es : List TraceEvent} (h : es.length ≤ n) :
  newest n es = es
  := by
  rw [newest, Nat.sub_eq_zero_of_le h, List.drop_zero]

/-- With one event too many the first one goes. -/
theorem newest_cons {n : Nat} {es : List TraceEvent} (e : TraceEvent) (h : es.length = n) :
  newest n (e :: es) = es
  := by
  rw [newest, List.length_cons, h, Nat.add_sub_cancel_left, List.drop_succ_cons, List.drop_zero]

/-- What fell out of the window before an event does not matter after it. -/
theorem newest_newest_concat (n : Nat) (es : List TraceEvent) (e : TraceEvent) :
  newest n (newest n es ++ [e]) = newest n (es ++ [e])
  := by
  simp only [newest, List.length_append, List.length_drop, List.length_singleton]
  rw [← List.drop_append_of_le_length (Nat.sub_le ..), List.drop_drop]
  congr 1
  omega

variable (r : TraceRing)

theorem length_slots :
  r.slots.toList.length = r.capacity
  := by simp

theorem length_events :
  r.events.length = r.size
  := by
  have hhead := r.head.isLt
  rw [events, size]
  split
  · rw [List.length_append, List.length_drop, List.length_take, length_slots]
    omega
  · rw [List.length_take, length_slots]
    omega

/-- The slots before the head, the one at the head, and those after it. -/
theorem exists_split :
  ∃ front x back, r.slots.toList = front ++ x :: back ∧ front.length = (r.head : Nat)
  := by
  have hhead : r.head < r.slots.toList.length := by
    rw [length_slots]
    exact r.head.isLt
  refine ⟨r.slots.toList.take r.head, r.slots.toList[(r.head : Nat)],
    r.slots.toList.drop (r.head + 1), ?_, ?_⟩
  · rw [List.getElem_cons_drop, List.take_append_drop]
  · rw [List.length_take]
    omega

variable {r} {front back : List TraceEvent} {x : TraceEvent}

theorem events_of_split (hslots : r.slots.toList = front ++ x :: back)
    (hlength : front.length = (r.head : Nat)) :
  r.events = if r.isFull then x :: back ++ front else front
  := by
  rw [events, hslots, ← hlength, List.drop_left, List.take_left]

/-- An event goes to the slot at the head. -/
theorem slots_push (hslots : r.slots.toList = front ++ x :: back)
    (hlength : front.length = (r.head : Nat)) (e : TraceEvent) :
  (r.push e).slots.toList = front ++ e :: back
  := by
  rw [push]
  dsimp only
  rw [Vector.toList_set, hslots, ← hlength, List.set_append_right _ _ (Nat.le_refl _),
    Nat.sub_self, List.set_cons_zero]

/-- An event comes behind those kept, and the oldest of them goes if there is no room. -/
theorem events_push (r : TraceRing) (e : TraceEvent) :
  (r.push e).events = newest r.capacity (r.events ++ [e])
  := by
  obtain ⟨front, x, back, hslots, hlength⟩ := r.exists_split
  have hslots' := slots_push hslots hlength e
  have hcapacity := congrArg List.length hslots
  rw [length_slots, List.length_append, List.length_cons] at hcapacity
  rw [events_of_split hslots hlength]
  cases back with
  | nil =>
      -- The head comes back to the first slot, and all slots are in order again.
      have hnext : (r.head + 1) % r.capacity = 0 := by
        rw [← hlength, hcapacity, List.length_nil, Nat.zero_add, Nat.mod_self]
      have hevents : (r.push e).events = front ++ [e] := by
        rw [events, hslots']
        simp [push, hnext]
      have hroom : (front ++ [e]).length = r.capacity := by
        rw [hcapacity, List.length_append, List.length_singleton, List.length_nil]
      rw [hevents]
      split
      · exact (newest_cons x hroom).symm
      · exact (newest_of_le (Nat.le_of_eq hroom)).symm
  | cons y back =>
      rw [List.length_cons] at hcapacity
      have hnext : (r.head + 1) % r.capacity = front.length + 1 := by
        rw [← hlength, Nat.mod_eq_of_lt]
        omega
      have hhead : (front ++ [e]).length = ((r.push e).head : Nat) := by simp [push, hnext]
      have hfull : (r.push e).isFull = r.isFull := by simp [push, hnext]
      rw [List.append_cons] at hslots'
      rw [events_of_split hslots' hhead, hfull]
      split
      · have hroom : (y :: back ++ (front ++ [e])).length = r.capacity := by
          simp only [List.length_append, List.length_cons, List.length_nil, hcapacity]
          omega
        rw [List.cons_append, List.append_assoc]
        exact (newest_cons x hroom).symm
      · rw [newest_of_le]
        simp only [List.length_append, List.length_cons, List.length_nil, hcapacity]
        omega

theorem capacity_ofCapacity (n : Int) :
  (ofCapacity n).capacity = if n ≤ 0 then 4096 else n.toNat
  := by
  rw [ofCapacity]
  split
  · rfl
  · rfl

theorem events_ofCapacity (n : Int) :
  (ofCapacity n).events = []
  := by
  rw [ofCapacity]
  split
  · rfl
  · rfl

end TraceRing

/-- An event is another one but for its number. -/
def TraceEvent.Renumbers (e' e : TraceEvent) : Prop := e' = { e with seq := e'.seq }

/-! ### Tracers with a ring -/

namespace Tracer

variable {t : Tracer} {e : TraceEvent} {es : List TraceEvent} {r : TraceRing}

theorem level_emit (t : Tracer) (e : TraceEvent) :
  (t.emit e).level = t.level
  := by
  have hring : ∀ t : Tracer, (t.emitToRing e).level = t.level := by
    intro t
    rw [emitToRing]
    split
    · rfl
    · rfl
  rw [emit]
  split
  · rw [hring, emitToStream]
    split
    · rfl
    · split
      · rfl
      · rfl
  · rfl

/-- What is let through does not change. -/
theorem accepts_emit (t : Tracer) (e : TraceEvent) :
  (t.emit e).accepts = t.accepts
  := by
  funext e'
  rw [accepts, accepts, level_emit]

theorem emit_of_not_accepts (h : t.accepts e = false) :
  t.emit e = t
  := by rw [emit, h, if_neg Bool.false_ne_true]

/-- An event that goes to a stream may take a number, and leaves the ring as it is. -/
theorem emitToStream_keeps (t : Tracer) (e : TraceEvent) :
  t.lastSeq ≤ (t.emitToStream e).lastSeq ∧ (t.emitToStream e).ring = t.ring
  := by
  rw [emitToStream]
  split
  · exact ⟨Nat.le_refl _, rfl⟩
  · split
    · exact ⟨Nat.le_refl _, rfl⟩
    · exact ⟨Nat.le_succ _, rfl⟩

/-- An event that is let through goes to the ring with a new number. -/
theorem ring_emit (haccepts : t.accepts e = true) (hring : t.ring = some r) :
  t.lastSeq < (t.emit e).lastSeq
    ∧ (t.emit e).ring = some (r.push { e with seq := (t.emit e).lastSeq })
  := by
  obtain ⟨hle, hkept⟩ := emitToStream_keeps t e
  rw [emit, if_pos haccepts, emitToRing, hkept, hring]
  exact ⟨Nat.lt_succ_of_le hle, rfl⟩

/-- A ring shows the newest of the events given to it. -/
structure Shows (t : Tracer) (r : TraceRing) (given : List TraceEvent) : Prop where
  ring : t.ring = some r
  events : r.events = TraceRing.newest r.capacity given
  ascending : (given.map (·.seq)).Pairwise (· < ·)
  numbered : ∀ e ∈ given, e.seq ≤ t.lastSeq

theorem Shows.emit {given : List TraceEvent} (h : t.Shows r given) (haccepts : t.accepts e = true) :
  t.lastSeq < (t.emit e).lastSeq
    ∧ ∃ r' e', r'.capacity = r.capacity ∧ e'.Renumbers e ∧ t.lastSeq < e'.seq
      ∧ (t.emit e).Shows r' (given ++ [e'])
  := by
  obtain ⟨hlt, hpushed⟩ := ring_emit haccepts h.ring
  let new : TraceEvent := { e with seq := (t.emit e).lastSeq }
  refine ⟨hlt, r.push new, new, rfl, rfl, hlt, hpushed, ?_, ?_, ?_⟩
  · rw [TraceRing.events_push, h.events, TraceRing.newest_newest_concat]
    rfl
  · rw [List.map_append, List.pairwise_append]
    refine ⟨h.ascending, List.pairwise_singleton .., ?_⟩
    intro n hn m hm
    obtain ⟨e', he', rfl⟩ := List.mem_map.mp hn
    obtain rfl := List.mem_singleton.mp hm
    exact Nat.lt_of_le_of_lt (h.numbered e' he') hlt
  · intro e' he'
    obtain he' | he' := List.mem_append.mp he'
    · exact Nat.le_trans (h.numbered e' he') (Nat.le_of_lt hlt)
    · obtain rfl := List.mem_singleton.mp he'
      exact Nat.le_refl _

/-- A ring goes on to show the newest events.  Those that are not let through leave no trace. -/
theorem Shows.foldl_emit {given : List TraceEvent} (h : t.Shows r given) (es : List TraceEvent) :
  ∃ r' new, r'.capacity = r.capacity ∧ List.Forall₂ TraceEvent.Renumbers new (es.filter t.accepts)
    ∧ (∀ e ∈ new, t.lastSeq < e.seq) ∧ (es.foldl Tracer.emit t).Shows r' (given ++ new)
  := by
  induction es generalizing t r given with
  | nil => exact ⟨r, [], rfl, .nil, by simp, by rwa [List.append_nil]⟩
  | cons e es ih =>
      rw [List.foldl_cons, List.filter_cons]
      split
      · next haccepts =>
          obtain ⟨hlt, r₁, e', hcapacity₁, he', hlt', hstep⟩ := h.emit haccepts
          obtain ⟨r₂, new, hcapacity₂, hnew, hafter, hrun⟩ := ih hstep
          rw [accepts_emit] at hnew
          refine ⟨r₂, e' :: new, hcapacity₂.trans hcapacity₁, .cons he' hnew, ?_, ?_⟩
          · rw [List.forall_mem_cons]
            exact ⟨hlt', fun x hx => Nat.lt_trans hlt (hafter x hx)⟩
          · rw [List.append_cons]
            exact hrun
      · next haccepts =>
          rw [emit_of_not_accepts (Bool.eq_false_iff.mpr haccepts)]
          exact ih h

/-- A ring keeps the newest of the events that the level lets through, as they were but for their
numbers, which ascend. -/
theorem ring_keeps_newest (capacity : Int) (level : TraceLevel) (stream : Option TraceStream)
    (lastSeq lastSpan : Nat) (es : List TraceEvent) :
  let tracer : Tracer := { level, stream, ring := some (.ofCapacity capacity), lastSeq, lastSpan }
  let accepted := es.filter fun e => level.admits e.scope || e.kind == .heartbeat
  let room := if capacity ≤ 0 then 4096 else capacity.toNat
  ∃ r, (es.foldl Tracer.emit tracer).ring = some r
    ∧ List.Forall₂ TraceEvent.Renumbers r.events (accepted.drop (accepted.length - room))
    ∧ r.events.length = min room accepted.length
    ∧ (r.events.map (·.seq)).Pairwise (· < ·)
    ∧ (∀ e ∈ r.events, lastSeq < e.seq)
    ∧ r.size = r.events.length
  := by
  intro tracer accepted room
  have hstart : tracer.Shows (.ofCapacity capacity) [] := by
    refine ⟨rfl, ?_, .nil, by simp⟩
    rw [TraceRing.events_ofCapacity, TraceRing.newest_of_le (Nat.zero_le _)]
  obtain ⟨r, given, hcapacity, hgiven, hnew, hshows⟩ := hstart.foldl_emit es
  rw [TraceRing.capacity_ofCapacity] at hcapacity
  have hlength : given.length = accepted.length := hgiven.length_eq
  have hevents : r.events = given.drop (accepted.length - room) := by
    rw [hshows.events, TraceRing.newest, hcapacity, List.nil_append, hlength]
  have hsub : r.events.Sublist given := hevents ▸ List.drop_sublist ..
  refine ⟨r, hshows.ring, ?_, ?_, ?_, ?_, r.length_events.symm⟩
  · rw [hevents]
    exact List.forall₂_drop _ hgiven
  · rw [hevents, List.length_drop, hlength]
    omega
  · exact hshows.ascending.sublist (hsub.map _)
  · exact fun e he => hnew e (hsub.mem he)

end Tracer

end ThreeAddress
