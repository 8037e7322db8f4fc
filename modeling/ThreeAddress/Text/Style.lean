import ThreeAddress.Text.Case

/-!
# Terminal styles

A style is a colour, boldness, or both.  Painting puts a text between the control sequence that
turns the style on and the one that turns it off.  The heading above a part of a report is its title
in capitals, then a rule.
-/

namespace ThreeAddress

/-- The colours of the palette. -/
inductive Colour where
  | red | green | yellow | blue | cyan | white
deriving DecidableEq, Repr

namespace Colour

/-- The number that selects a colour. -/
def code : Colour → Nat
  | red => 31
  | green => 32
  | yellow => 33
  | blue => 34
  | cyan => 36
  | white => 37

end Colour

/-- A colour, boldness, or both. -/
structure Style where
  colour : Option Colour := none
  bold : Bool := false
deriving DecidableEq, Repr

namespace Style

/-- The parameters that turn a style on. -/
def onCodes (s : Style) : List Nat :=
  (s.colour.map Colour.code).toList ++ (if s.bold then [1] else [])

/-- The parameters that turn a style off, one for each that turned it on. -/
def offCodes (s : Style) : List Nat :=
  (s.colour.map fun _ => 0).toList ++ (if s.bold then [22] else [])

/-- A control sequence with the given parameters. -/
def sequence (codes : List Nat) : Text :=
  "\x1b[" ++ Text.join ";" (codes.map Text.ofNat) ++ "m"

/-- The text in this style, or plain if `enabled` is false. -/
def paint (s : Style) (enabled : Bool) (t : Text) : Text :=
  if enabled then sequence s.onCodes ++ t ++ sequence s.offCodes else t

end Style

/-! ### Headings -/

/-- The length of the rule. -/
def ruleLength : Nat := 50

/-- The style of titles. -/
def titleStyle : Style := { colour := some .cyan, bold := true }

/-- A heading with an empty line in front. -/
def heading (title : Text) (color : Bool) : Text :=
  Text.lines [[], titleStyle.paint color title.upper, Text.fill ruleLength '=']

end ThreeAddress
