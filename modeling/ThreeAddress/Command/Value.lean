import ThreeAddress.Text.Quoted
import ThreeAddress.Word

/-!
# Values of options

The words of a command line that follow an option, read as what the option takes: a text, a switch,
an integer or a duration.
-/

namespace ThreeAddress

/-- What an option takes. -/
inductive OptionKind where
  | text | switch | integer | duration
deriving DecidableEq, Repr

/-- What an option is set to.  Durations are in nanoseconds. -/
inductive OptionValue where
  | text (t : Text)
  | switch (b : Bool)
  | integer (n : Int)
  | duration (n : Int)
deriving DecidableEq, Repr

/-- Why a word is no value. -/
inductive ValueError where
  | notInteger (word : Text)
  | integerTooLarge (word : Text)
  | notSwitch (word : Text)
  | notDuration (word : Text)
  | missingUnit (word : Text)
  | unknownUnit (unit word : Text)
deriving DecidableEq, Repr

namespace ValueError

/-- A word of a duration between quotes, with every byte that is not printable ASCII by its
value. -/
def plainQuoted (t : Text) : Text :=
  let shown (b : UInt8) : Text :=
    if b < 0x20 ∨ 0x80 ≤ b then "\\x" ++ Text.hex 2 b.toNat
    else if b = 34 ∨ b = 92 then [92, b]
    else [b]
  "\"" ++ t.flatMap shown ++ "\""

/-- The wording of an error. -/
def message : ValueError → Text
  | notInteger word => "strconv.ParseInt: parsing " ++ word.quoted ++ ": invalid syntax"
  | integerTooLarge word => "strconv.ParseInt: parsing " ++ word.quoted ++ ": value out of range"
  | notSwitch word => "strconv.ParseBool: parsing " ++ word.quoted ++ ": invalid syntax"
  | notDuration word => "time: invalid duration " ++ plainQuoted word
  | missingUnit word => "time: missing unit in duration " ++ plainQuoted word
  | unknownUnit unit word =>
    "time: unknown unit " ++ plainQuoted unit ++ " in duration " ++ plainQuoted word

end ValueError

/-! ### Integers -/

namespace IntegerWord

/-- The underscore, which may stand between digits. -/
def underscore : UInt8 := Text.byte '_'

/-- The value of a digit or letter as a digit. -/
def digit? (b : UInt8) : Option Nat :=
  let n := b.toNat
  if 48 ≤ n ∧ n ≤ 57 then some (n - 48)
  else if 97 ≤ n ∧ n ≤ 122 then some (n - 87)
  else if 65 ≤ n ∧ n ≤ 90 then some (n - 55)
  else none

/-- The base that the front of a word announces, and the digits after it. -/
def base (t : Text) : Nat × Text :=
  match t with
  | 48 :: b :: c :: rest =>
    match Text.lowerAscii [b] with
    | [98] => (2, c :: rest)
    | [111] => (8, c :: rest)
    | [120] => (16, c :: rest)
    | _ => (8, b :: c :: rest)
  | 48 :: rest => (8, rest)
  | t => (10, t)

/-- Whether every underscore stands between two digits.  A mark of the base counts as one. -/
def underscoresFit (afterDigit : Bool) : Text → Bool
  | [] => true
  | b :: rest =>
    if b = underscore then
      match rest with
      | c :: _ => afterDigit && c != underscore && underscoresFit false rest
      | [] => false
    else underscoresFit true rest

/-- The number of a run of digits.  Reading ends at the first byte that is no digit of the base, or
when the number no longer fits into 64 bits. -/
def magnitude (base : Nat) (word : Text) (n : Nat) : Text → Except ValueError Nat
  | [] => .ok n
  | b :: rest =>
    if b = underscore then magnitude base word n rest
    else match digit? b with
      | none => .error (.notInteger word)
      | some d =>
        if base ≤ d then .error (.notInteger word)
        else if Word.count ≤ n * base + d then .error (.integerTooLarge word)
        else magnitude base word (n * base + d) rest

/-- Splits off a sign. -/
def sign (t : Text) : Bool × Text :=
  match t with
  | 45 :: rest => (true, rest)
  | 43 :: rest => (false, rest)
  | t => (false, t)

/-- The integer of a word.  It may have a sign, announce its base, and have underscores between its
digits. -/
def read (word : Text) : Except ValueError Int := do
  let (negative, body) := sign word
  if body.isEmpty then .error (.notInteger word)
  let (radix, digits) := base body
  let n ← magnitude radix word 0 digits
  if !underscoresFit (radix != 10) digits then .error (.notInteger word)
  if negative then
    if Word.half < n then .error (.integerTooLarge word) else return -(n : Int)
  else if Word.half ≤ n then .error (.integerTooLarge word) else return n

end IntegerWord

/-! ### Switches -/

/-- The words for on and off. -/
def readSwitch (word : Text) : Except ValueError Bool :=
  let is (s : String) : Bool := Text.ofString s == word
  if ["1", "t", "T", "TRUE", "true", "True"].any is then .ok true
  else if ["0", "f", "F", "FALSE", "false", "False"].any is then .ok false
  else .error (.notSwitch word)

/-! ### Durations -/

namespace DurationWord

/-- Units and their nanoseconds. -/
def units : List (String × Nat) :=
  [("ns", 1), ("us", 1000), ("µs", 1000), ("μs", 1000), ("ms", 1000000), ("s", 1000000000),
    ("m", 60000000000), ("h", 3600000000000)]

/-- Whether a byte is a decimal digit. -/
def isDigit (b : UInt8) : Bool := (Text.digitValue? b).isSome

/-- The point before decimals. -/
def point : UInt8 := Text.byte '.'

/-- The nanoseconds of `whole.fraction` units, rounded down. -/
def scaled (size whole : Nat) (fraction : Text) : Nat :=
  whole * size + (Text.toNat? fraction).getD 0 * size / Nat.pow 10 fraction.length

/-- The number in front of a text: its whole part, its decimals, and what is left. -/
def number (t : Text) : Text × Text × Text :=
  let whole := t.takeWhile isDigit
  match t.dropWhile isDigit with
  | [] => (whole, [], [])
  | b :: rest =>
    if b = point then (whole, rest.takeWhile isDigit, rest.dropWhile isDigit)
    else (whole, [], b :: rest)

/-- The sum of the parts of a duration.  Each part takes at least one byte, so the length of the
text bounds their number. -/
def parts (word : Text) : (fuel : Nat) → (total : Nat) → Text → Except ValueError Nat
  | 0, total, _ => .ok total
  | _, total, [] => .ok total
  | fuel + 1, total, t =>
    let (whole, fraction, rest) := number t
    if whole.isEmpty ∧ fraction.isEmpty then .error (.notDuration word)
    else if Word.half < (Text.toNat? whole).getD 0 then .error (.notDuration word)
    else
      let isUnit (b : UInt8) : Bool := b != point && !isDigit b
      let unit := rest.takeWhile isUnit
      if unit.isEmpty then .error (.missingUnit word)
      else match units.find? fun u => Text.ofString u.1 == unit with
        | none => .error (.unknownUnit unit word)
        | some (_, size) =>
          let total := total + scaled size ((Text.toNat? whole).getD 0) fraction
          if Word.half < total then .error (.notDuration word)
          else parts word fuel total (rest.dropWhile isUnit)

/-- The nanoseconds of a word such as `1h30m` or `-1.5s`; a zero needs no unit. -/
def read (word : Text) : Except ValueError Int := do
  let (negative, body) := IntegerWord.sign word
  if body == "0" then return 0
  if body.isEmpty then .error (.notDuration word)
  let n ← parts word body.length 0 body
  if negative then return -(n : Int)
  else if Word.half ≤ n then .error (.notDuration word) else return n

end DurationWord

/-- Reads a word as an option of some kind takes it. -/
def OptionKind.read (k : OptionKind) (word : Text) : Except ValueError OptionValue :=
  match k with
  | text => .ok (.text word)
  | switch => (readSwitch word).map .switch
  | integer => (IntegerWord.read word).map .integer
  | duration => (DurationWord.read word).map .duration

end ThreeAddress
