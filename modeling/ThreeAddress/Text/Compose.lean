import ThreeAddress.Text.ComposeTable

/-!
# Canonical composition

`Text.compose` brings a text to its composed normal form.  Every character is decomposed into
atoms, and the atoms are gathered into segments: a segment begins with an atom that stands on its
own, followed by the marks and vowels that belong to it, and the marks are ordered by combining
class.  Then each atom of a segment that is not blocked is put together with its base again.  Bytes
outside well-formed UTF-8 are atoms of their own that never join.  No more than thirty dependent
atoms follow one another without a joiner between them.
-/

namespace ThreeAddress

namespace Compose

/-- A character that is not decomposed any further, with the bytes that stand for it, its combining
class, and whether it can join with what stands before it. -/
structure Atom where
  code : Nat
  bytes : Text
  cls : Nat := 0
  joins : Bool := false
deriving DecidableEq, Repr

/-- The canonical combining class of a code point. -/
def classOf (c : Nat) : Nat :=
  if c < 0x300 then 0
  else match combiningClassTable.find? fun ((lo, hi), _) => decide (lo ≤ c) && decide (c ≤ hi) with
    | some (_, k) => k
    | none => 0

namespace Atom

/-- The atom of a code point. -/
def ofCode (c : Nat) : Atom :=
  { code := c, bytes := Text.ofCode c, cls := classOf c, joins := joiningCodes.contains c }

/-- The atom that two atoms join to.  It stands on its own. -/
def joined (c : Nat) : Atom := { code := c, bytes := Text.ofCode c }

/-- Whether the atom stands on its own. -/
def isStarter (a : Atom) : Bool := a.cls == 0 && !a.joins

/-- Whether the atom depends on what stands before it, as a mark, a vowel or another form of
these. -/
def isDependent (a : Atom) : Bool := !a.isStarter || markLikeCodes.contains a.code

/-- The number of marks at the end of what the atom is another form of. -/
def hiddenMarks (a : Atom) : Nat :=
  if twoMarkCodes.contains a.code then 2 else if oneMarkCodes.contains a.code then 1 else 0

end Atom

/-! ### Syllable blocks -/

/-- The first syllable block. -/
def syllableBase : Nat := 0xAC00

/-- The first leading consonant. -/
def leadBase : Nat := 0x1100

/-- The first vowel. -/
def vowelBase : Nat := 0x1161

/-- The code point before the first trailing consonant. -/
def trailBase : Nat := 0x11A7

/-- Whether `c` is a syllable block. -/
def isSyllable (c : Nat) : Bool := syllableBase ≤ c && c < syllableBase + 11172

/-- Whether `c` is in the block of consonants and vowels that syllable blocks are made of. -/
def isSyllablePart (c : Nat) : Bool := leadBase ≤ c && c < leadBase + 256

/-- The consonants and vowel of a syllable block. -/
def syllableParts (c : Nat) : List Nat :=
  let s := c - syllableBase
  let body := [leadBase + s / 588, vowelBase + s % 588 / 28]
  if s % 28 = 0 then body else body ++ [trailBase + s % 28]

/-- The syllable block of two parts, if they form one. -/
def joinSyllable (a b : Nat) : Option Nat :=
  if leadBase ≤ a && a < leadBase + 19 && vowelBase ≤ b && b < vowelBase + 21 then
    some (syllableBase + ((a - leadBase) * 21 + (b - vowelBase)) * 28)
  else if isSyllable a && (a - syllableBase) % 28 == 0 && trailBase < b && b < trailBase + 28 then
    some (a + (b - trailBase))
  else none

/-! ### Decomposition -/

/-- The full canonical decomposition of a code point; no decomposition is nested deeper than
`depth`. -/
def decompose : (depth : Nat) → Nat → List Nat
  | 0, c => [c]
  | depth + 1, c =>
    if c < 0xC0 then [c]
    else if isSyllable c then syllableParts c
    else (decompositionTable.find? (·.1 == c)).elim [c] fun e => e.2.flatMap (decompose depth)

/-- The atoms of a character. -/
def atomsOf (g : Glyph) : List Atom :=
  if g.valid then (decompose 5 g.code).map Atom.ofCode else [{ code := g.code, bytes := g.bytes }]

/-- The number of dependent atoms in front. -/
def leadCount (as : List Atom) : Nat := (as.takeWhile Atom.isDependent).length

/-- The number of marks at the end, given the atoms from the last to the first. -/
def trailCount : List Atom → Nat
  | [] => 0
  | a :: rest => if a.isDependent then trailCount rest + 1 else a.hiddenMarks

/-! ### Segments -/

/-- Puts an atom into a segment, which is given from its last atom to its first.  A mark goes before
the marks of higher classes at the end. -/
def insertAtom (a : Atom) : List Atom → List Atom
  | [] => [a]
  | b :: rest =>
    if a.cls != 0 && a.cls < b.cls then b :: insertAtom a rest else a :: b :: rest

/-- Puts the atoms of one character into a new segment.  A further atom that stands on its own
begins one more; the segments that are complete come first, and the last is still open. -/
def openSegment (segment : List Atom) : List Atom → List (List Atom) × List Atom
  | [] => ([], segment)
  | a :: rest =>
    if a.isStarter && !segment.isEmpty then
      let (complete, last) := openSegment [a] rest
      (segment :: complete, last)
    else openSegment (insertAtom a segment) rest

/-- The joiner that ends an overlong run of dependent atoms. -/
def runJoiner : Atom := .joined 0x34F

/-- The longest run of dependent atoms. -/
def maxRun : Nat := 30

/-- The segments of a sequence of characters, each from its last atom to its first.  `segment` is
the open one, which ends in a run of `run` dependent atoms. -/
def segmentsFrom (run : Nat) (segment : List Atom) : List Glyph → List (List Atom)
  | [] => [segment]
  | g :: rest =>
    let as := atomsOf g
    let lead := leadCount as
    if 0 < lead && run + lead ≤ maxRun then
      segmentsFrom (run + lead) (as.foldl (fun s a => insertAtom a s) segment) rest
    else
      let closed := if lead = 0 then segment else runJoiner :: segment
      let (complete, last) := openSegment [] as
      let run := if lead = 0 then trailCount as.reverse else lead
      closed :: complete ++ segmentsFrom run last rest

/-! ### Composition -/

/-- Whether two code points agree in their low sixteen bits. -/
def agree (a b : Nat) : Bool := a % 0x10000 == b % 0x10000

/-- Whether some parts are `a` followed by `b`, as far as pairs are told apart. -/
def isPair (a b : Nat) : List Nat → Bool
  | [x, y] => agree x a && agree y b
  | _ => false

/-- The code point whose decomposition is `a` followed by `b`. -/
def joinPair (a b : Nat) : Option Nat :=
  (decompositionTable.find? fun (c, parts) =>
    isPair a b parts && !compositionExclusions.contains c).map (·.1)

/-- A segment that is being composed: the atom that others may join with, what stands before it, and
what stands after it, both from the last atom to the first. -/
structure Joining where
  done : List Atom := []
  base : Atom
  held : List Atom := []

namespace Joining

/-- The last atom. -/
def last (j : Joining) : Atom := j.held.headD j.base

/-- Takes the last atom for the base. -/
def settle (j : Joining) : Joining :=
  match j.held with
  | [] => j
  | a :: rest => { done := rest ++ j.base :: j.done, base := a }

/-- Puts an atom at the end. -/
def hold (j : Joining) (a : Atom) : Joining := { j with held := a :: j.held }

/-- Whether an atom between keeps `a` from the base: one of the same or of a higher class. -/
def blocks (j : Joining) (a : Atom) : Bool := !j.held.isEmpty && a.cls ≤ j.last.cls

/-- Joins an atom with the base if `pair` allows it, and puts it at the end otherwise.  Only here an
atom of class `0` becomes the base, and only if it is the last. -/
def join (pair : Nat → Nat → Option Nat) (j : Joining) (a : Atom) : Joining :=
  let j := if j.last.cls = 0 then j.settle else j
  match if j.blocks a then none else pair j.base.code a.code with
  | some c => { j with base := .joined c }
  | none => j.hold a

/-- The atoms in order. -/
def toList (j : Joining) : List Atom := (j.held ++ j.base :: j.done).reverse

end Joining

/-- Composes the atoms after the first ones.  From the first part of a syllable block on, only
syllable blocks are formed. -/
def joinAll (syllabic : Bool) (j : Joining) : List Atom → List Atom
  | [] => j.toList
  | a :: rest =>
    if syllabic || isSyllablePart a.code then joinAll true (j.join joinSyllable a) rest
    else if a.joins then joinAll false (j.join joinPair a) rest
    else joinAll false (j.hold a) rest

/-- Composes a segment. -/
def composeSegment : List Atom → List Atom
  | [] => []
  | a :: rest => joinAll false { base := a } rest

end Compose

/-- The composed normal form of a text.  ASCII text is its own normal form. -/
def Text.normal (t : Text) : Text :=
  if t.all (· < 0x80) then t
  else (Compose.segmentsFrom 0 [] t.glyphs).flatMap fun segment =>
    (Compose.composeSegment segment.reverse).flatMap (·.bytes)

instance : Composing := ⟨Text.normal⟩

end ThreeAddress
