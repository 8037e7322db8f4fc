import ThreeAddress.Trace.Event

/-!
# Tracers

A tracer writes events to a stream, keeps the newest in a ring, or does both.  Whoever accepts an
event gives it the next number.  Spans are opened and closed against a tracer; a span whose scope
the level does not admit is inert, and so is everything done to it.
-/

namespace ThreeAddress

/-! ### Rings -/

/-- The newest events, at most `capacity` of them.  The next event goes to the slot at `head`.  Once
all slots are taken the oldest event is there. -/
structure TraceRing where
  capacity : Nat := 4096
  capacity_pos : 0 < capacity := by decide
  slots : Vector TraceEvent capacity := Vector.replicate capacity {}
  head : Fin capacity := ⟨0, capacity_pos⟩
  isFull : Bool := false
deriving Repr

namespace TraceRing

/-- A ring of the given capacity, or of the usual one if that is not positive. -/
def ofCapacity (n : Int) : TraceRing :=
  if h : n ≤ 0 then {} else { capacity := n.toNat, capacity_pos := by omega }

/-- Keeps an event.  All slots are taken when the head comes back to the first one. -/
def push (r : TraceRing) (e : TraceEvent) : TraceRing :=
  let next := (r.head + 1) % r.capacity
  { r with
    slots := r.slots.set r.head e
    head := ⟨next, Nat.mod_lt _ r.capacity_pos⟩
    isFull := r.isFull || next == 0 }

/-- The events kept, the oldest first. -/
def events (r : TraceRing) : List TraceEvent :=
  if r.isFull then r.slots.toList.drop r.head ++ r.slots.toList.take r.head
  else r.slots.toList.take r.head

/-- The number of events kept. -/
def size (r : TraceRing) : Nat := if r.isFull then r.capacity else r.head

/-- The events kept, in a format. -/
def dump (r : TraceRing) (f : TraceFormat) : Text := r.events.flatMap (·.written f)

/-- Gives the closing events of a span its notes as they are now.  Events that closed it without any
notes stay as they are. -/
def amend (r : TraceRing) (span : Nat) (extra : Dict Text) : TraceRing :=
  { r with slots := r.slots.map fun e =>
      if e.kind = .ends ∧ e.span = span ∧ !e.extra.entries.isEmpty then { e with extra } else e }

end TraceRing

/-! ### Streams -/

/-- Events written out.  The records for a trace viewer form one document, which ends when the
stream is closed. -/
structure TraceStream where
  format : TraceFormat
  pieces : Array Text := #[]
  isFirst : Bool := true
  isClosed : Bool := false
deriving Repr

namespace TraceStream

/-- A stream with the head of its document. -/
def ofFormat (f : TraceFormat) : TraceStream :=
  { format := f, pieces := if f = .viewer then #["\x7b\"traceEvents\":[\n"] else #[] }

/-- Writes an event. -/
def push (s : TraceStream) (e : TraceEvent) : TraceStream :=
  let comma : Text := if s.format = .viewer ∧ !s.isFirst then ",\n" else []
  { s with pieces := s.pieces.push (comma ++ e.written s.format), isFirst := false }

/-- Closes the document; a closed stream stays as it is. -/
def close (s : TraceStream) : TraceStream :=
  if s.isClosed then s
  else { s with
    isClosed := true
    pieces := if s.format = .viewer then s.pieces.push "\n]\x7d\n" else s.pieces }

/-- What was written. -/
def written (s : TraceStream) : Text := s.pieces.toList.flatten

end TraceStream

/-! ### Tracers -/

/-- A tracer with the last numbers given to events and spans. -/
structure Tracer where
  level : TraceLevel := .off
  stream : Option TraceStream := none
  ring : Option TraceRing := none
  lastSeq : Nat := 0
  lastSpan : Nat := 0
deriving Repr

/-- What a tracer is asked to be. -/
structure TraceConfig where
  level : TraceLevel := .off
  mode : TraceMode := .ring
  format : TraceFormat := .auto
  path : Text := []
  capacity : Int := 0
deriving Repr

namespace Tracer

/-- The tracer that does nothing. -/
def silent : Tracer := {}

/-- The format of a configuration, with an open choice made by the name of the output. -/
def formatOf (c : TraceConfig) : TraceFormat :=
  if c.format ≠ .auto then c.format
  else if c.path.isEmpty || c.path == "-" then .text
  else .ofPath c.path

/-- The tracer of a configuration. -/
def ofConfig (c : TraceConfig) : Except Text Tracer :=
  let stream := TraceStream.ofFormat (formatOf c)
  let ring := TraceRing.ofCapacity c.capacity
  if c.level = .off then .ok silent
  else if c.mode = .stream then .ok { level := c.level, stream }
  else if c.mode = .ring then .ok { level := c.level, ring }
  else if c.mode = .both then .ok { level := c.level, stream, ring }
  else .error ("unknown storage mode: " ++ c.mode.name)

/-- Whether anything is traced. -/
def isOn (t : Tracer) : Bool := t.level.isOn

/-- Whether an event is let through.  Signs of life always are. -/
def accepts (t : Tracer) (e : TraceEvent) : Bool :=
  t.level.admits e.scope || e.kind == .heartbeat

/-- Writes an event to the stream, if there is one and it is open. -/
def emitToStream (t : Tracer) (e : TraceEvent) : Tracer :=
  match t.stream with
  | none => t
  | some s =>
    if s.isClosed then t
    else
      let seq := t.lastSeq + 1
      { t with stream := some (s.push { e with seq }), lastSeq := seq }

/-- Keeps an event in the ring, if there is one. -/
def emitToRing (t : Tracer) (e : TraceEvent) : Tracer :=
  match t.ring with
  | none => t
  | some r =>
    let seq := t.lastSeq + 1
    { t with ring := some (r.push { e with seq }), lastSeq := seq }

/-- Takes an event. -/
def emit (t : Tracer) (e : TraceEvent) : Tracer :=
  if t.accepts e then (t.emitToStream e).emitToRing e else t

/-- Closes the stream. -/
def close (t : Tracer) : Tracer := { t with stream := t.stream.map TraceStream.close }

end Tracer

/-! ### Spans -/

/-- An open span.  An inert span has no number. -/
structure TraceSpan where
  id : Nat := 0
  parent : Nat := 0
  scope : TraceScope := {}
  thread : Nat := 0
  name : Text := []
  extra : Dict Text := ⟨[]⟩
deriving Repr, Inhabited

/-- Whether the span takes part in the trace. -/
def TraceSpan.isLive (s : TraceSpan) : Bool := s.id != 0

namespace Tracer

/-- Opens a span below a parent. -/
def openSpan (t : Tracer) (now : Int) (scope : TraceScope) (name : Text) (parent : Nat) :
    Tracer × TraceSpan :=
  if t.isOn && t.level.admits scope then
    let s : TraceSpan := { id := t.lastSpan + 1, parent, scope, thread := 1, name }
    let e : TraceEvent :=
      { time := now, kind := .begins, scope, span := s.id, parent, thread := 1, name }
    ({ t with lastSpan := s.id }.emit e, s)
  else (t, { parent })

/-- Adds a note to a span; a later note under the same key replaces it. -/
def note (t : Tracer) (s : TraceSpan) (key value : Text) : Tracer × TraceSpan :=
  if s.isLive then
    let s := { s with extra := s.extra.insert key value }
    ({ t with ring := t.ring.map (·.amend s.id s.extra) }, s)
  else (t, s)

/-- Reports something that happened inside a span. -/
def point (t : Tracer) (now : Int) (s : TraceSpan) (scope : TraceScope) (name detail : Text) :
    Tracer :=
  if s.isLive && t.level.admits scope then
    let e : TraceEvent :=
      { time := now, kind := .point, scope, span := t.lastSpan + 1, parent := s.id
        thread := s.thread, name, detail }
    { t with lastSpan := t.lastSpan + 1 }.emit e
  else t

/-- Closes a span. -/
def closeSpan (t : Tracer) (now : Int) (s : TraceSpan) (detail : Text) : Tracer :=
  if s.isLive then
    t.emit { time := now, kind := .ends, scope := s.scope, span := s.id, parent := s.parent
             thread := s.thread, name := s.name, detail, extra := s.extra }
  else t

end Tracer

end ThreeAddress
