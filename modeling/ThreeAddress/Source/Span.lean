import ThreeAddress.Text.Basic

/-!
# Spans

A span is a half-open range of byte offsets inside one file.  Offsets are 32-bit words and their
arithmetic wraps around.
-/

namespace ThreeAddress

/-- Identifies a file of a file set. -/
abbrev FileId := UInt32

/-- The bytes from `start` up to, but not including, `stop` of a file. -/
structure Span where
  file : FileId := 0
  start : UInt32 := 0
  stop : UInt32 := 0
deriving DecidableEq, Repr, Inhabited

namespace Span

/-- Whether a span holds no byte. -/
def isEmpty (s : Span) : Bool := s.start == s.stop

/-- The number of bytes, modulo the word size. -/
def size (s : Span) : UInt32 := s.stop - s.start

/-- The smallest span that contains both; spans of different files do not merge. -/
def cover (s t : Span) : Span :=
  if s.file = t.file then ⟨s.file, min s.start t.start, max s.stop t.stop⟩ else s

/-- A span as `file:start-stop`. -/
def text (s : Span) : Text :=
  Text.ofNat s.file.toNat ++ ":" ++ Text.ofNat s.start.toNat ++ "-" ++ Text.ofNat s.stop.toNat

end Span

/-- A position in a file, both numbers counted from one. -/
structure Position where
  line : UInt32
  column : UInt32
deriving DecidableEq, Repr, Inhabited

end ThreeAddress
