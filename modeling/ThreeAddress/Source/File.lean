import ThreeAddress.Digest
import ThreeAddress.Path
import ThreeAddress.Source.Span

/-!
# Source files

A file keeps its cleaned-up bytes and the offsets of its newlines.  Clean-up drops a byte-order
mark and turns every CR LF pair into a newline.  Positions are found by searching the newlines
before an offset.  Offsets and line numbers are 32-bit words, and so is the arithmetic on them.
-/

namespace ThreeAddress

/-- How a file entered its set. -/
structure FileFlags where
  isVirtual : Bool := false
  hadMark : Bool := false
  hadCarriageReturns : Bool := false
deriving DecidableEq, Repr, Inhabited

namespace FileFlags

/-- The flags as a bit set. -/
def bits (f : FileFlags) : Nat :=
  (if f.isVirtual then 1 else 0) + (if f.hadMark then 2 else 0) +
    (if f.hadCarriageReturns then 4 else 0)

end FileFlags

/-- How sums and differences of 32-bit words are made.  A sum or difference that is no word is left
to the arithmetic, and `none` ends the program there. -/
structure WordArithmetic where
  add? : UInt32 → UInt32 → Option UInt32
  sub? : UInt32 → UInt32 → Option UInt32

namespace WordArithmetic

/-- The arithmetic of the machine, which wraps around. -/
def wrapping : WordArithmetic where
  add? a b := some (a + b)
  sub? a b := some (a - b)

/-- The arithmetic that ends the program where the machine wraps around. -/
def checked : WordArithmetic where
  add? a b := if a ≤ a + b then some (a + b) else none
  sub? a b := if b ≤ a then some (a - b) else none

end WordArithmetic

/-- A source file. -/
structure File where
  id : FileId := 0
  path : Text := []
  content : Text := []
  newlines : Array UInt32 := #[]
  flags : Nat := 0
deriving Repr, Inhabited

/-- How a path is shown. -/
inductive PathMode where
  | auto | absolute | relative | basename | asIs
deriving DecidableEq, Repr

namespace PathMode

/-- The modes that have a name. -/
def named : List (String × PathMode) :=
  [("auto", auto), ("absolute", absolute), ("relative", relative), ("basename", basename)]

/-- The mode of a name; under any other name a path is shown as it is. -/
def ofName (name : String) : PathMode := (named.lookup name).getD asIs

/-- The mode at a place among those that have a name. -/
def ofNumber (n : Nat) : PathMode := ((named[n]?).map (·.2)).getD auto

end PathMode

namespace File

/-! ### Clean-up -/

/-- The byte-order mark. -/
def byteOrderMark : Text := [0xEF, 0xBB, 0xBF]

/-- Drops a byte-order mark at the front and tells whether there was one. -/
def dropMark (t : Text) : Text × Bool :=
  match Text.dropLeading? byteOrderMark t with
  | some rest => (rest, true)
  | none => (t, false)

/-- Whether a carriage return stands directly before a newline. -/
def hasReturns : Text → Bool
  | [] => false
  | 13 :: 10 :: _ => true
  | _ :: rest => hasReturns rest

/-- The cleaned-up content, with whether a mark and whether carriage returns were dropped. -/
def cleanUp (t : Text) : Text × Bool × Bool :=
  let (body, marked) := dropMark t
  (body.dropReturns, marked, hasReturns body)

/-! ### Lines and positions -/

/-- The offsets of the newlines of a text that starts at offset `at_`. -/
def newlineOffsets (at_ : Nat) : Text → List UInt32
  | [] => []
  | b :: rest =>
    if b = 10 then at_.toUInt32 :: newlineOffsets (at_ + 1) rest else newlineOffsets (at_ + 1) rest

/-- The number of entries below an offset in an ascending index, if they end between `low` and
`high`; every step halves what is left between the two. -/
def searchBelow (index : Array UInt32) (offset : UInt32) (low high : Nat) : Nat :=
  if low < high then
    let middle := (low + high) / 2
    if index.getD middle 0 < offset then searchBelow index offset (middle + 1) high
    else searchBelow index offset low middle
  else low
termination_by high - low

/-- The number of newlines strictly before an offset. -/
def linesBefore (f : File) (offset : UInt32) : Nat :=
  searchBelow f.newlines offset 0 f.newlines.size

/-- The position of an offset. -/
def position (f : File) (offset : UInt32) : Position :=
  match f.linesBefore offset with
  | 0 => ⟨1, offset + 1⟩
  | n + 1 =>
    let start := f.newlines.getD n 0 + 1
    ⟨(n + 2).toUInt32, offset - start + 1⟩

/-- The positions of the two ends of a span. -/
def resolve (f : File) (s : Span) : Position × Position := (f.position s.start, f.position s.stop)

/-- The bytes of the given range, ends cut to the content. -/
def slice (f : File) (start stop : Nat) : Text := (f.content.drop start).take (stop - start)

/-- The bytes of the given range; `none` if its ends are out of order or past the content. -/
def slice? (f : File) (start stop : UInt32) : Option Text :=
  if start ≤ stop ∧ stop.toNat ≤ f.content.length then some (f.slice start.toNat stop.toNat)
  else none

/-- The end of line `n`: its newline, or the end of the content. -/
def lineStop? (w : WordArithmetic) (f : File) (n : UInt32) : Option UInt32 := do
  let newline ← w.sub? n 1
  if newline < f.newlines.size.toUInt32 then f.newlines[newline.toNat]?
  else return f.content.length.toUInt32

/-- Line `n`, which starts at an offset. -/
def lineFrom? (w : WordArithmetic) (f : File) (n start : UInt32) : Option Text := do
  let stop ← f.lineStop? w n
  if f.content.length.toUInt32 < start then return []
  else f.slice? start stop

/-- Line `n`, counted from one, without its newline; empty if there is no such line.  It is `none`
where the arithmetic is, and where an index or a range is outside the file. -/
def lineIn? (w : WordArithmetic) (f : File) (n : UInt32) : Option Text :=
  if n = 0 then some []
  else if n = 1 then f.lineFrom? w n 0
  else do
    let newline ← w.sub? n 2
    if newline < f.newlines.size.toUInt32 then
      let start ← w.add? (← f.newlines[newline.toNat]?) 1
      f.lineFrom? w n start
    else return []

/-- Line `n`, counted from one, without its newline; empty if there is no such line. -/
def line (f : File) (n : Nat) : Text := (f.lineIn? .wrapping n.toUInt32).getD []

/-- The digest of the content. -/
def digest (f : File) : Digest := Digest.sha256 f.content

/-! ### Shown paths -/

/-- The length from which an absolute path is shown by its last component only. -/
def longPath : Nat := 40

/-- The path as shown in a mode; relative paths start at `cwd`, and `baseDir` is the directory that
relative display counts from. -/
def shownPath (f : File) (cwd : Text) (mode : PathMode) (baseDir : Text) : Text :=
  match mode with
  | .absolute => Path.absolute cwd f.path
  | .relative =>
    let from_ := if baseDir.isEmpty then cwd else baseDir
    match Path.relativeTo? from_ (Path.absolute cwd f.path) with
    | some rel => if Path.parent.isPrefixOf rel then f.path else rel
    | none => f.path
  | .basename => Path.base f.path
  | .auto =>
    if decide (longPath ≤ f.path.length) && Path.isAbsolute f.path then Path.base f.path else f.path
  | .asIs => f.path

end File

end ThreeAddress
