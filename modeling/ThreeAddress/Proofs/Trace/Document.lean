import Mathlib.Tactic.Common
import ThreeAddress.Proofs.Json
import ThreeAddress.Proofs.Trace.Ring

/-!
# A trace for a viewer is one document

A stream for a viewer starts a list when it is made and ends it when it is closed.  In between it
puts a comma in front of every record but the first.  So at every moment it holds the head of the
document and the records so far, and once it is closed nothing is written any more.
-/

namespace ThreeAddress

/-! ### Records -/

namespace TraceEvent

open Json

theorem isDocument_texts (d : Dict Text) :
  IsDocument (texts d).compact
  := by
  apply isDocument_object
  intro f hf
  obtain ⟨⟨k, v⟩, -, rfl⟩ := List.mem_map.mp hf
  exact isDocument_string v

/-- A record is a document of its own. -/
theorem isDocument_record (e : TraceEvent) :
  IsDocument e.record.compact
  := by
  have hargs : ∀ args : Dict Text,
      ∀ f ∈ if args.entries.isEmpty then [] else [(Text.ofString "args", texts args)],
        IsDocument f.2.compact := by
    intro args f hf
    split at hf
    · cases hf
    · obtain rfl := List.mem_singleton.mp hf
      exact isDocument_texts args
  apply isDocument_object
  intro f hf
  simp only [List.flatten_cons, List.flatten_nil, List.append_nil, List.mem_append, List.mem_cons,
    List.not_mem_nil, or_false] at hf
  obtain (rfl | rfl | rfl | rfl | rfl | rfl) | hf := hf
  · exact isDocument_string _
  · exact isDocument_string _
  · exact isDocument_string _
  · exact isDocument_int _
  · exact isDocument_nat _
  · exact isDocument_nat _
  · exact hargs _ f hf

theorem written_viewer (e : TraceEvent) :
  e.written .viewer = e.record.compact
  := by
  rw [written, if_neg (by decide), if_pos rfl]

/-- A record does not show the number of its event. -/
theorem written_viewer_renumbered (e : TraceEvent) (n : Nat) :
  { e with seq := n }.written .viewer = e.written .viewer
  := by
  have hrecord : { e with seq := n }.record = e.record := rfl
  rw [written_viewer, written_viewer, hrecord]

end TraceEvent

/-! ### Documents -/

namespace Text

variable {ts : List Text}

theorem join_concat_of_ne_nil (sep t : Text) (h : ts ≠ []) :
  join sep (ts ++ [t]) = join sep ts ++ sep ++ t
  := by
  induction ts with
  | nil => exact absurd rfl h
  | cons t' ts ih =>
      obtain rfl | hne := eq_or_ne ts []
      · rfl
      · rw [List.cons_append, join_cons_of_ne_nil _ _ (by simp), ih hne,
          join_cons_of_ne_nil _ _ hne]
        simp only [List.append_assoc]

end Text

namespace TraceStream

/-- The head of a document for a viewer. -/
def head : Text := "\x7b\"traceEvents\":[\n"

/-- The foot of a document for a viewer. -/
def foot : Text := "\n]\x7d\n"

/-- The document of some records, with a comma and a line end between neighbours. -/
def document (records : List Text) : Text := head ++ Text.join ",\n" records ++ foot

theorem isBlank_newline :
  Json.IsBlank [10]
  := by
  intro b hb
  obtain rfl := List.mem_singleton.mp hb
  exact .inr (.inr (.inl rfl))

/-- Documents that are joined with a comma and a line end are the items of a list, with the line
ends as white space. -/
theorem exists_items {ts : List Text} (hne : ts ≠ []) (h : ∀ t ∈ ts, Json.IsDocument t) :
  ∃ items, items ≠ [] ∧ (∀ t ∈ items, Json.IsDocument t)
    ∧ [10] ++ Text.join ",\n" ts ++ [10] = Text.join "," items
  := by
  induction ts with
  | nil => exact absurd rfl hne
  | cons t ts ih =>
      obtain ⟨ht, hts⟩ := List.forall_mem_cons.mp h
      obtain rfl | hne' := eq_or_ne ts []
      · refine ⟨[[10] ++ t ++ [10]], List.cons_ne_nil _ _, ?_, rfl⟩
        intro t' ht'
        obtain rfl := List.mem_singleton.mp ht'
        exact .blank isBlank_newline ht isBlank_newline
      · obtain ⟨items, hitems, hdocuments, heq⟩ := ih hne' hts
        have hfirst := Json.IsDocument.blank isBlank_newline ht Json.isBlank_nil
        have hcomma : Text.ofString ",\n" = Text.ofString "," ++ [10] := rfl
        refine ⟨([10] ++ t ++ []) :: items, List.cons_ne_nil _ _,
          List.forall_mem_cons.mpr ⟨hfirst, hdocuments⟩, ?_⟩
        rw [Text.join_cons_of_ne_nil _ _ hne', Text.join_cons_of_ne_nil _ _ hitems, ← heq, hcomma]
        simp only [List.append_assoc, List.append_nil]

/-- A document of well-formed records is well formed. -/
theorem isDocument_document {records : List Text} (h : ∀ t ∈ records, Json.IsDocument t) :
  Json.IsDocument (document records)
  := by
  let list : Text := "[" ++ ([10] ++ Text.join ",\n" records ++ [10] : Text) ++ "]"
  have hlist : Json.IsDocument list := by
    obtain rfl | hne := eq_or_ne records []
    · apply Json.IsDocument.emptyArray
      intro b hb
      obtain rfl : b = 10 := by simpa [Text.join] using hb
      exact isBlank_newline 10 (List.mem_singleton_self _)
    · obtain ⟨items, hitems, hdocuments, heq⟩ := exists_items hne h
      have hlist : list = "[" ++ Text.join "," items ++ "]" := by rw [← heq]
      rw [hlist]
      exact .array hitems hdocuments
  have hkey : Json.IsKey (Json.quote "traceEvents") := by
    simpa using Json.IsKey.intro Json.isBlank_nil (Json.isString_quote "traceEvents") Json.isBlank_nil
  have hfields : ([(Json.quote "traceEvents", list)] : List (Text × Text)) ≠ [] :=
    List.cons_ne_nil _ _
  have hobject := Json.IsDocument.object hfields (by simpa using hkey) (by simpa using hlist)
  have hdocument := Json.IsDocument.blank Json.isBlank_nil hobject isBlank_newline
  have hquote : Json.quote "traceEvents" = Text.ofString "\"traceEvents\"" := by decide +kernel
  have hhead : head = Text.ofString "\x7b" ++ Text.ofString "\"traceEvents\"" ++ Text.ofString ":"
      ++ Text.ofString "[" ++ [10] := rfl
  have hfoot : foot = [10] ++ Text.ofString "]" ++ Text.ofString "\x7d" ++ [10] := rfl
  rw [hquote, List.map_singleton, Text.join] at hdocument
  rw [document, hhead, hfoot]
  simpa only [list, List.nil_append, List.append_assoc] using hdocument

/-! ### Streams -/

/-- An open stream holds the head of the document and the records so far. -/
structure Holds (s : TraceStream) (records : List Text) : Prop where
  format : s.format = .viewer
  isOpen : s.isClosed = false
  isFirst : s.isFirst = records.isEmpty
  written : s.written = head ++ Text.join ",\n" records

theorem holds_ofFormat :
  (ofFormat .viewer).Holds []
  := ⟨rfl, rfl, rfl, rfl⟩

theorem written_push (s : TraceStream) (e : TraceEvent) :
  (s.push e).written
    = s.written ++ ((if s.format = .viewer ∧ !s.isFirst then Text.ofString ",\n" else [])
      ++ e.written s.format)
  := by simp [written, push]

variable {s : TraceStream} {records : List Text}

/-- A record gets a comma in front unless it is the first one. -/
theorem Holds.push (h : s.Holds records) (e : TraceEvent) :
  (s.push e).Holds (records ++ [e.written .viewer])
  := by
  refine ⟨h.format, h.isOpen, by simp [TraceStream.push], ?_⟩
  rw [written_push, h.written, h.format, h.isFirst]
  obtain rfl | hne := eq_or_ne records []
  · rfl
  · rw [Text.join_concat_of_ne_nil _ _ hne, if_pos (by simpa using hne)]
    simp only [List.append_assoc]

/-- Closing a stream ends its document. -/
theorem Holds.close (h : s.Holds records) :
  s.close.isClosed = true ∧ s.close.written = document records
  := by
  have hclose : s.close = { s with isClosed := true, pieces := s.pieces.push foot } := by
    rw [TraceStream.close, h.isOpen, h.format]
    rfl
  have hwritten : s.close.written = s.written ++ foot := by simp [hclose, TraceStream.written]
  rw [hwritten, h.written, hclose]
  exact ⟨rfl, rfl⟩

theorem close_of_isClosed (h : s.isClosed = true) :
  s.close = s
  := by rw [close, if_pos h]

end TraceStream

/-! ### Tracers with a stream -/

/-- What a tracer is asked to do. -/
inductive TraceCall where
  | emit (e : TraceEvent)
  | close

/-- The events of the calls before the first one that closes. -/
def TraceCall.eventsBeforeClose : List TraceCall → List TraceEvent
  | .emit e :: calls => e :: eventsBeforeClose calls
  | _ => []

namespace Tracer

/-- Does what is asked for. -/
def call (t : Tracer) : TraceCall → Tracer
  | .emit e => t.emit e
  | .close => t.close

variable {t : Tracer} {e : TraceEvent} {s : TraceStream}

theorem stream_emitToRing (t : Tracer) (e : TraceEvent) :
  (t.emitToRing e).stream = t.stream
  := by
  rw [emitToRing]
  split
  · rfl
  · rfl

/-- An event that is let through goes to an open stream with a new number. -/
theorem stream_emit (haccepts : t.accepts e = true) (hstream : t.stream = some s)
    (hopen : s.isClosed = false) :
  (t.emit e).stream = some (s.push { e with seq := t.lastSeq + 1 })
  := by
  rw [emit, if_pos haccepts, stream_emitToRing, emitToStream, hstream]
  dsimp only
  rw [hopen, if_neg Bool.false_ne_true]

/-- Nothing goes to a closed stream. -/
theorem stream_call_of_isClosed (hstream : t.stream = some s) (hclosed : s.isClosed = true)
    (c : TraceCall) :
  (t.call c).stream = some s
  := by
  cases c with
  | emit e =>
      rw [call, emit]
      split
      · rw [stream_emitToRing, emitToStream, hstream]
        dsimp only
        rw [if_pos hclosed, hstream]
      · exact hstream
  | close => rw [call, close, hstream, Option.map_some, TraceStream.close_of_isClosed hclosed]

theorem stream_foldl_of_isClosed (hstream : t.stream = some s) (hclosed : s.isClosed = true)
    (calls : List TraceCall) :
  (calls.foldl call t).stream = some s
  := by
  induction calls generalizing t with
  | nil => exact hstream
  | cons c calls ih => exact ih (stream_call_of_isClosed hstream hclosed c)

/-- Up to the first call that closes, the records of the events that are let through are added. -/
theorem written_foldl {records : List Text} (hstream : t.stream = some s) (h : s.Holds records)
    {calls : List TraceCall} (hclose : TraceCall.close ∈ calls) :
  ∃ s', (calls.foldl call t).stream = some s'
    ∧ s'.written = TraceStream.document (records
      ++ ((TraceCall.eventsBeforeClose calls).filter t.accepts).map (·.written .viewer))
  := by
  induction calls generalizing t s records with
  | nil => cases hclose
  | cons c calls ih =>
      cases c with
      | close =>
          obtain ⟨hclosed, hwritten⟩ := h.close
          have hstep : (t.call .close).stream = some s.close := by
            rw [call, close, hstream, Option.map_some]
          refine ⟨s.close, stream_foldl_of_isClosed hstep hclosed calls, ?_⟩
          rw [hwritten, TraceCall.eventsBeforeClose, List.filter_nil, List.map_nil, List.append_nil]
          exact nofun
      | emit e =>
          have hmem : TraceCall.close ∈ calls := (List.mem_cons.mp hclose).resolve_left nofun
          rw [TraceCall.eventsBeforeClose, List.filter_cons, List.foldl_cons]
          split
          · next haccepts =>
              have hstep := stream_emit haccepts hstream h.isOpen
              have hpush := h.push { e with seq := t.lastSeq + 1 }
              rw [TraceEvent.written_viewer_renumbered] at hpush
              obtain ⟨s', hs', hwritten⟩ := ih hstep hpush hmem
              refine ⟨s', hs', ?_⟩
              rw [hwritten, accepts_emit, List.map_cons, List.append_assoc, List.singleton_append]
          · next haccepts =>
              have hsame := emit_of_not_accepts (Bool.eq_false_iff.mpr haccepts)
              rw [call, hsame]
              exact ih hstream h hmem

end Tracer

/-- A trace for a viewer is one well-formed document, however often it is closed: its head, the
records of the events that are let through before it is closed for the first time, with one comma
and line end between neighbours, and its foot. -/
theorem viewer_trace_is_one_document (level : TraceLevel) (ring : Option TraceRing)
    (lastSeq lastSpan : Nat) {calls : List TraceCall} (h : TraceCall.close ∈ calls) :
  let tracer : Tracer := { level, stream := some (.ofFormat .viewer), ring, lastSeq, lastSpan }
  let accepted := (TraceCall.eventsBeforeClose calls).filter fun e =>
    level.admits e.scope || e.kind == .heartbeat
  ∃ s, (calls.foldl Tracer.call tracer).stream = some s
    ∧ s.written = "\x7b\"traceEvents\":[\n"
      ++ Text.join ",\n" (accepted.map (·.written .viewer)) ++ "\n]\x7d\n"
    ∧ Json.IsDocument s.written
  := by
  intro tracer accepted
  obtain ⟨s, hs, hwritten⟩ :=
    Tracer.written_foldl (t := tracer) rfl TraceStream.holds_ofFormat h
  refine ⟨s, hs, hwritten, ?_⟩
  rw [hwritten]
  apply TraceStream.isDocument_document
  intro t ht
  obtain ⟨e, -, rfl⟩ := List.mem_map.mp ht
  rw [e.written_viewer]
  exact e.isDocument_record

/-- Only stages are traced: the event of an instruction leaves no comma behind, a sign of life is
written, and so is nothing after the end. -/
theorem viewer_trace_of_stages :
  let began : TraceEvent := { time := 1, kind := .begins, scope := .pass, span := 1, name := "lex" }
  let inner : TraceEvent := { time := 2, kind := .point, scope := .node, span := 2, name := "x" }
  let alive : TraceEvent := { time := 3, kind := .heartbeat, scope := .node, detail := "#1" }
  let calls : List TraceCall :=
    [.emit inner, .emit began, .emit inner, .emit alive, .close, .emit began, .close]
  let tracer : Tracer := { level := .phase, stream := some (.ofFormat .viewer) }
  TraceCall.close ∈ calls ∧ ∃ s, (calls.foldl Tracer.call tracer).stream = some s
    ∧ s.written = "\x7b\"traceEvents\":[\n"
      ++ (began.written .viewer ++ ",\n" ++ alive.written .viewer) ++ "\n]\x7d\n"
    ∧ Json.IsDocument s.written
  := by
  intro began inner alive calls tracer
  have hclose : TraceCall.close ∈ calls := by simp [calls]
  exact ⟨hclose, viewer_trace_is_one_document .phase none 0 0 hclose⟩

end ThreeAddress
