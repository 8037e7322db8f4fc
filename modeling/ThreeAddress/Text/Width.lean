import ThreeAddress.Text.ClusterTable
import ThreeAddress.Text.WidthTable

/-!
# Display width

The number of terminal columns a text takes.  A text is cut into grapheme clusters, and a cluster
is as wide as its first character that has a width of its own.  A text becomes a block when its
lines are padded to one width, so that what stands beside or below it keeps its place.
-/

namespace ThreeAddress

/-- The classes of characters that decide where a cluster ends. -/
inductive BreakClass where
  | carriageReturn | lineFeed | control | extend | joiner | regional | prepend | spacing
  | lead | vowel | trail | leadVowel | leadVowelTrail | pictograph | other
deriving DecidableEq, Repr

namespace BreakClass

/-- The class of a code point. -/
def ofCode (c : Nat) : BreakClass :=
  if c = 13 then carriageReturn
  else if c = 10 then lineFeed
  else if c < 0x20 then control
  else if c < 0x7F then other
  else if c = 0x200D then joiner
  else if 0x1F1E6 ≤ c && c ≤ 0x1F1FF then regional
  else if 0xAC00 ≤ c && c ≤ 0xD7A3 then
    if (c - 0xAC00) % 28 = 0 then leadVowel else leadVowelTrail
  else if hangulLeadCodes.contains c then lead
  else if hangulVowelCodes.contains c then vowel
  else if hangulTrailCodes.contains c then trail
  else if extendCodes.contains c then extend
  else if controlCodes.contains c then control
  else if prependCodes.contains c then prepend
  else if spacingMarkCodes.contains c then spacing
  else if pictographCodes.contains c then pictograph
  else other

/-- Whether a character of this class ends every cluster it touches. -/
def isControl : BreakClass → Bool
  | carriageReturn | lineFeed | control => true
  | _ => false

end BreakClass

/-- What the characters of a cluster so far tell about its end: the class of the last one, whether
they end in a pictograph with its extensions, and in how many regional indicators. -/
structure ClusterState where
  last : BreakClass
  pictograph : Bool
  joined : Bool
  regionals : Nat
deriving DecidableEq, Repr

namespace ClusterState

/-- The state after a cluster's first character. -/
def start (k : BreakClass) : ClusterState :=
  ⟨k, k == .pictograph, false, if k = .regional then 1 else 0⟩

/-- The state after one more character. -/
def push (s : ClusterState) (k : BreakClass) : ClusterState :=
  { last := k
    pictograph := k == .pictograph || (s.pictograph && k == .extend)
    joined := s.pictograph && k == .joiner
    regionals := if k = .regional then s.regionals + 1 else 0 }

/-- Whether a cluster in this state goes on with a character of class `k`. -/
def extendsWith (s : ClusterState) (k : BreakClass) : Bool :=
  if s.last = .carriageReturn && k = .lineFeed then true
  else if s.last.isControl || k.isControl then false
  else match s.last, k with
    | .lead, .lead | .lead, .vowel | .lead, .leadVowel | .lead, .leadVowelTrail => true
    | .leadVowel, .vowel | .leadVowel, .trail | .vowel, .vowel | .vowel, .trail => true
    | .leadVowelTrail, .trail | .trail, .trail => true
    | _, .extend | _, .joiner | _, .spacing => true
    | .prepend, _ => true
    | .joiner, .pictograph => s.joined
    | .regional, .regional => s.regionals % 2 == 1
    | _, _ => false

end ClusterState

namespace Text

/-- The number of bytes that are looked at together where `t` starts with `b`: a byte that
announces more takes the continuation bytes after it, as many as there are.  `none` means that the
text ends before the announced number. -/
def unitSize? (b : UInt8) (rest : Text) : Option Nat :=
  let announced := if b < 0xC2 then 0 else if b < 0xE0 then 1 else if b < 0xF0 then 2
    else if b < 0xF8 then 3 else 0
  if rest.length < announced then none
  else some ((rest.take announced).takeWhile Glyph.isContinuation).length

/-- The class of the first character. -/
def firstClass (b : UInt8) (rest : Text) : BreakClass :=
  let g := Glyph.first b rest
  if g.valid then .ofCode g.code else .other

/-- Cuts a text into clusters; `cluster` is the one being collected.  A character cut off by the
end of the text belongs to the last cluster. -/
def clustersFrom (s : ClusterState) (cluster : Text) : Text → List Text
  | [] => [cluster]
  | b :: rest =>
    match unitSize? b rest with
    | none => [cluster ++ b :: rest]
    | some n =>
      let k := firstClass b rest
      let unit := b :: rest.take n
      if s.extendsWith k then clustersFrom (s.push k) (cluster ++ unit) (rest.drop n)
      else cluster :: clustersFrom (.start k) unit (rest.drop n)
termination_by t => t.length
decreasing_by
  all_goals simp only [List.length_drop, List.length_cons]
  all_goals omega

/-- The grapheme clusters of a text. -/
def clusters : Text → List Text
  | [] => []
  | b :: rest =>
    match unitSize? b rest with
    | none => [b :: rest]
    | some n => clustersFrom (.start (firstClass b rest)) (b :: rest.take n) (rest.drop n)

/-- The columns a single character takes. -/
def codeWidth (c : Nat) : Nat :=
  if c < 0x20 then 0
  else if (0x7F ≤ c && c ≤ 0x9F) || c == 0xAD then 0
  else if c < 0x300 then 1
  else if narrowCodes.contains c then 1
  else if silentCodes.contains c || combiningCodes.contains c then 0
  else if wideCodes.contains c then 2
  else 1

/-- The columns a cluster takes: those of its first character of positive width. -/
def clusterWidth (cluster : Text) : Nat :=
  ((cluster.glyphs.map fun g => codeWidth g.code).find? (0 < ·)).getD 0

/-- The columns that the clusters of a text take. -/
def columns (t : Text) : Nat := (t.clusters.map clusterWidth).foldl (· + ·) 0

instance : Measuring := ⟨columns⟩

/-! ### Blocks -/

/-- The columns of a tab. -/
def tabColumns : Nat := 4

/-- Writes blanks for tabs. -/
def expandTabs (t : Text) : Text := t.flatMap fun b => if b = 9 then blanks tabColumns else [b]

/-- A text as a block: every line is padded to the width of the widest. -/
def block [Measuring] (t : Text) : Text :=
  let rows := splitByte 10 t.expandTabs.dropReturns
  let widest := (rows.map width).foldl max 0
  join [10] (rows.map (padColumns widest))

end Text

end ThreeAddress
