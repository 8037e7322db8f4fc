import ThreeAddress.Toml.DateTime
import ThreeAddress.Toml.Value
import ThreeAddress.Word

/-!
# The written form of a settings document

A document is a series of statements, one to a line: a header of a table, a header of one more row
of an array of tables, or a key with its value.  Reading a statement takes at least one byte, and a
value inside of an array or of an inline table takes fewer bytes than the value around it, so the
length of the text bounds the depth of the recursion.
-/

namespace ThreeAddress

namespace Toml

/-- A value as written.  The entries of an inline table have dotted keys, each with the line on
which it starts. -/
inductive Written where
  | string (text : Text)
  | integer (value : Int)
  | float (value : Float)
  | boolean (value : Bool)
  | time (text : Text)
  | array (items : List Written)
  | table (entries : List (Key × Nat × Written))
deriving Inhabited

/-- A statement.  The line of a header is that of its bracket; the line of an assignment is the one
on which the value ends, or on which it starts if it has parts. -/
inductive Statement where
  | header (key : Key) (line : Nat)
  | row (key : Key) (line : Nat)
  | assign (key : Key) (line : Nat) (value : Written)
deriving Inhabited

namespace Written

/-! ### Blanks and comments -/

/-- Whether a byte is a blank inside of a line. -/
def isBlank (b : UInt8) : Bool := b == 32 || b == 9

/-- Whether a byte ends a line. -/
def isNewline (b : UInt8) : Bool := b == 10 || b == 13

/-- Drops blanks. -/
def skipBlanks (t : Text) : Text := t.dropWhile isBlank

/-- Drops a comment up to the end of its line. -/
def skipComment (t : Text) : Text := t.dropWhile (! isNewline ·)

/-- Drops blanks, line ends and comments. -/
def skipLines : (fuel : Nat) → Text → Text
  | 0, t => t
  | fuel + 1, t =>
    match t.dropWhile fun b => isBlank b || isNewline b with
    | 35 :: rest => skipLines fuel (skipComment rest)
    | rest => rest

/-- The end of a statement: blanks and a comment, then the end of the line or of the text. -/
def endOfLine? (t : Text) : Option Text :=
  match skipBlanks t with
  | [] => some []
  | 35 :: rest => some (skipComment rest)
  | b :: rest => if isNewline b then some rest else none

/-! ### Strings -/

/-- The character of an escape with so many hexadecimal digits. -/
def escapedCode? (count : Nat) (t : Text) : Option (Text × Text) :=
  let digits := t.take count
  if digits.length < count || !digits.all (Decimal.hexDigit? · |>.isSome) then none
  else
    let code := Decimal.digitsValue 16 digits
    if 0x10FFFF < code || (0xD800 ≤ code && code ≤ 0xDFFF) then none
    else some (Text.ofCode code, t.drop count)

/-- What stands for an escape, after its backslash. -/
def escaped? : Text → Option (Text × Text)
  | 98 :: t => some ([8], t)
  | 116 :: t => some ([9], t)
  | 110 :: t => some ([10], t)
  | 102 :: t => some ([12], t)
  | 114 :: t => some ([13], t)
  | 34 :: t => some ([34], t)
  | 92 :: t => some ([92], t)
  | 117 :: t => escapedCode? 4 t
  | 85 :: t => escapedCode? 8 t
  | _ => none

/-- A string with escapes, after its opening quote. -/
def basic? : (fuel : Nat) → (seen : Text) → Text → Option (Text × Text)
  | 0, _, _ => none
  | fuel + 1, seen, t =>
    match t with
    | [] => none
    | 34 :: rest => some (seen, rest)
    | 92 :: rest => do
      let (c, rest) ← escaped? rest
      basic? fuel (seen ++ c) rest
    | b :: rest => if isNewline b then none else basic? fuel (seen ++ [b]) rest

/-- A string without escapes, after its opening quote. -/
def literal? (t : Text) : Option (Text × Text) :=
  let body := t.takeWhile fun b => b != 39 && !isNewline b
  match t.drop body.length with
  | 39 :: rest => some (body, rest)
  | _ => none

/-- The number of quotes at the front. -/
def quotes (quote : UInt8) (t : Text) : Nat := (t.takeWhile (· == quote)).length

/-- The end of a string over several lines, at a run of at least three quotes: so many of them may
belong to the string. -/
def closing? (inside : Nat) (quote : UInt8) (seen t : Text) : Option (Text × Text) :=
  let n := quotes quote t
  if n ≤ inside + 3 then some (seen ++ List.replicate (n - 3) quote, t.drop n) else none

/-- A string with escapes over several lines, after its opening quotes.  A backslash at the end of a
line takes the white space that follows with it.  The string may end in two quotes, and in three
right after a backslash, which `slash` tells to have just been read. -/
def basicLines? : (fuel : Nat) → (slash : Bool) → (seen : Text) → Text → Option (Text × Text)
  | 0, _, _, _ => none
  | fuel + 1, slash, seen, t =>
    match t with
    | [] => none
    | 34 :: rest =>
      if 3 ≤ quotes 34 t then closing? (if slash then 3 else 2) 34 seen t
      else basicLines? fuel false (seen ++ [34]) rest
    | 92 :: rest =>
      let gap := rest.takeWhile fun b => isBlank b || isNewline b
      if gap.contains 10 then basicLines? fuel false seen (rest.drop gap.length)
      else do
        let slash := rest.head? == some 92
        let (c, rest) ← escaped? rest
        basicLines? fuel slash (seen ++ c) rest
    | b :: rest => basicLines? fuel false (seen ++ [b]) rest

/-- A string without escapes over several lines, after its opening quotes. -/
def literalLines? : (seen : Text) → Text → Option (Text × Text)
  | _, [] => none
  | seen, b :: rest =>
    if b == 39 && 3 ≤ quotes 39 (b :: rest) then closing? 2 39 seen (b :: rest)
    else literalLines? (seen ++ [b]) rest

/-- Drops the line end right after the opening quotes. -/
def dropFirstNewline : Text → Text
  | 10 :: t => t
  | 13 :: 10 :: t => t
  | t => t

/-- A string of any form. -/
def anyString? : Text → Option (Text × Text)
  | 34 :: 34 :: 34 :: t => basicLines? (t.length + 1) false [] (dropFirstNewline t)
  | 39 :: 39 :: 39 :: t => literalLines? [] (dropFirstNewline t)
  | 34 :: t => basic? (t.length + 1) [] t
  | 39 :: t => literal? t
  | _ => none

/-! ### Keys -/

/-- One part of a key. -/
def part? (t : Text) : Option (Text × Text) :=
  match skipBlanks t with
  | 34 :: rest => basic? (rest.length + 1) [] rest
  | 39 :: rest => literal? rest
  | t =>
    let name := t.takeWhile Key.isBare
    if name.isEmpty then none else some (name, t.drop name.length)

/-- A key up to the byte after it, which is taken too. -/
def key? (stop : UInt8) : (fuel : Nat) → Text → Option (Key × Text)
  | 0, _ => none
  | fuel + 1, t => do
    let (first, t) ← part? t
    match skipBlanks t with
    | 46 :: rest => do
      let (more, rest) ← key? stop fuel rest
      return (first :: more, rest)
    | b :: rest => if b = stop then some ([first], rest) else none
    | [] => none

/-! ### Numbers -/

/-- Whether every underscore stands between digits. -/
def underscoresFit : (after : Bool) → Text → Bool
  | after, [] => after
  | after, b :: t =>
    if b = 95 && !after then false else underscoresFit (Decimal.hexDigit? b).isSome t

/-- Whether a number has a zero in front that it does not need. -/
def hasLeadingZero (t : Text) : Bool :=
  match t with
  | 48 :: b :: _ => !(b == 98 || b == 111 || b == 120)
  | b :: 48 :: _ :: _ => b == 43 || b == 45
  | _ => false

/-- Drops the underscores. -/
def withoutUnderscores (t : Text) : Text := t.filter (· != 95)

/-- An integer with its base and digits, within 64 bits. -/
def integerOf? (t : Text) : Option Int :=
  if !underscoresFit false t || hasLeadingZero t then none
  else
    let (negative, digits) := Decimal.splitSign (withoutUnderscores t)
    let n := match digits with
      | 48 :: 120 :: d => Decimal.digitsValue 16 d
      | 48 :: 111 :: d => Decimal.digitsValue 8 d
      | 48 :: 98 :: d => Decimal.digitsValue 2 d
      | d => Decimal.digitsValue 10 d
    let value : Int := if negative then -n else n
    if Word.holds value then some value else none

/-- Whether a byte divides the parts of a float. -/
def isFloatMark (b : UInt8) : Bool := b == 46 || b == 101 || b == 69

/-- The parts of a float that are not empty. -/
def floatParts : Text → List Text
  | [] => []
  | b :: t =>
    if isFloatMark b then floatParts t
    else
      let part := b :: t.takeWhile (! isFloatMark ·)
      part :: floatParts (t.drop (part.length - 1))
termination_by t => t.length
decreasing_by
  all_goals simp only [List.length_cons, List.length_drop]; omega

/-- Whether every point is followed by a digit. -/
def pointsFit : Text → Bool
  | [] => true
  | 46 :: t => (t.head?.map Decimal.isDigit).getD false && pointsFit t
  | _ :: t => pointsFit t

/-- A float. -/
def floatOf? (t : Text) : Option Float :=
  let parts := floatParts t
  let leading := (parts.head?.map hasLeadingZero).getD false
  if !parts.all (underscoresFit false) || leading || !pointsFit t then none
  else (Decimal.read (withoutUnderscores t)).toOption

/-- Whether a byte may stand in a date or time. -/
def isTimeByte (b : UInt8) : Bool :=
  Decimal.isDigit b || b == 45 || b == 58 || b == 84 || b == 116 || b == 32 || b == 46 || b == 90 ||
    b == 122 || b == 43

/-- Whether a byte may stand in a float. -/
def isFloatByte (b : UInt8) : Bool :=
  Decimal.isDigit b || b == 95 || b == 45 || b == 43 || isFloatMark b

/-- Whether a byte may stand in a decimal integer. -/
def isDecimalByte (b : UInt8) : Bool := Decimal.isDigit b || b == 95

/-- A sign and one of the words for a float that is no number. -/
def specialFloat? (t : Text) : Option (Float × Text) :=
  let (negative, rest) := Decimal.splitSign t
  let after (word : Text) : Option Text := Text.dropLeading? word rest
  match after "inf", after "nan" with
  | some rest, _ => some (if negative then -(1 / 0) else 1 / 0, rest)
  | none, some rest => some (0 / 0, rest)
  | none, none => none

/-- An integer in another base than ten, from its mark on. -/
def basedInteger? (isDigit : UInt8 → Bool) (t : Text) : Option (Written × Text) :=
  let digits := (t.drop 2).takeWhile fun b => isDigit b || b == 95
  match digits with
  | b :: _ =>
    if isDigit b then do
      let n ← integerOf? (t.take 2 ++ digits)
      return (.integer n, t.drop (2 + digits.length))
    else none
  | [] => none

/-- A number, date or time. -/
def number? (t : Text) : Option (Written × Text) :=
  match t with
  | 48 :: 120 :: _ => basedInteger? (fun b => (Decimal.hexDigit? b).isSome) t
  | 48 :: 111 :: _ => basedInteger? (fun b => 48 ≤ b && b ≤ 55) t
  | 48 :: 98 :: _ => basedInteger? (fun b => b == 48 || b == 49) t
  | _ =>
    let (_, unsigned) := Decimal.splitSign t
    let signLength := t.length - unsigned.length
    let digits := unsigned.takeWhile Decimal.isDigit
    let next := (unsigned.drop digits.length).headD 0
    if digits.isEmpty then none
    else if signLength = 0 ∧ 2 ≤ digits.length + (if digits.head? = some 48 then 0 else 1)
        ∧ (next = 45 ∨ next = 58) then
      let body := t.takeWhile isTimeByte
      let text := Text.trimEndBlanks body
      if DateTime.isValid text then some (.time text, t.drop body.length) else none
    else
      let whole := unsigned.takeWhile isDecimalByte
      let next := (unsigned.drop whole.length).headD 0
      if isFloatMark next then do
        let size := signLength + (unsigned.takeWhile isFloatByte).length
        let x ← floatOf? (t.take size)
        return (.float x, t.drop size)
      else do
        let size := signLength + whole.length
        let n ← integerOf? (t.take size)
        return (.integer n, t.drop size)

/-! ### Values -/

/-- A value that has no parts. -/
def scalar? (t : Text) : Option (Written × Text) :=
  match anyString? t with
  | some (s, rest) => some (.string s, rest)
  | none =>
    match Text.dropLeading? "true" t, Text.dropLeading? "false" t, specialFloat? t with
    | some rest, _, _ => some (.boolean true, rest)
    | _, some rest, _ => some (.boolean false, rest)
    | _, _, some (x, rest) => some (.float x, rest)
    | none, none, none => number? t

/-- The line of the place that a rest of the text starts at, in a text with so many line ends. -/
def lineOf (newlines : Nat) (t : Text) : Nat := newlines - List.count 10 t + 1

mutual

/-- A value. -/
def value? (newlines : Nat) : (fuel : Nat) → Text → Option (Written × Text)
  | 0, _ => none
  | fuel + 1, t =>
    match skipBlanks t with
    | 91 :: rest => do
      let (items, rest) ← items? newlines fuel rest
      return (.array items, rest)
    | 123 :: rest => do
      match skipBlanks rest with
      | 125 :: rest => return (.table [], rest)
      | rest =>
        let (entries, rest) ← entries? newlines fuel rest
        return (.table entries, rest)
    | t => scalar? t

/-- The items of an array up to its end; a comma may stand after the last. -/
def items? (newlines : Nat) : (fuel : Nat) → Text → Option (List Written × Text)
  | 0, _ => none
  | fuel + 1, t =>
    match skipLines (t.length + 1) t with
    | 93 :: rest => some ([], rest)
    | t => do
      let (item, t) ← value? newlines fuel t
      match skipLines (t.length + 1) t with
      | 93 :: rest => return ([item], rest)
      | 44 :: rest =>
        let (more, rest) ← items? newlines fuel rest
        return (item :: more, rest)
      | _ => none

/-- The entries of an inline table up to its end; it lies on one line. -/
def entries? (newlines : Nat) :
    (fuel : Nat) → Text → Option (List (Key × Nat × Written) × Text)
  | 0, _ => none
  | fuel + 1, t => do
    let line := lineOf newlines t
    let (key, t) ← key? 61 (t.length + 1) t
    let (value, t) ← value? newlines fuel t
    match skipBlanks t with
    | 125 :: rest => return ([(key, line, value)], rest)
    | 44 :: rest =>
      let (more, rest) ← entries? newlines fuel rest
      return ((key, line, value) :: more, rest)
    | _ => none

end

/-! ### Documents -/

/-- A statement without the end of its line. -/
def statement? (newlines : Nat) (t : Text) : Option (Statement × Text) :=
  let fuel := t.length + 1
  let line := lineOf newlines t
  match t with
  | 91 :: 91 :: rest => do
    let (key, rest) ← key? 93 fuel rest
    match rest with
    | 93 :: rest => return (.row key line, rest)
    | _ => none
  | 91 :: rest => do
    let (key, rest) ← key? 93 fuel rest
    return (.header key line, rest)
  | t => do
    let (key, rest) ← key? 61 fuel t
    let (value, rest) ← value? newlines fuel rest
    let line := match value with
      | .array _ | .table _ => line
      | _ => lineOf newlines rest
    return (.assign key line value, rest)

/-- The statements of a text, in a document with so many line ends. -/
def statements? (newlines : Nat) : (fuel : Nat) → Text → Option (List Statement)
  | 0, _ => none
  | fuel + 1, t =>
    match skipLines (t.length + 1) t with
    | [] => some []
    | t => do
      let (s, rest) ← statement? newlines t
      let rest ← endOfLine? rest
      let more ← statements? newlines fuel rest
      return s :: more

/-- Whether a text has only characters that a document may hold: no control characters, a carriage
return only in front of a newline, and no replacement character. -/
def isPlain (t : Text) : Bool :=
  let control (b : UInt8) : Bool := (b < 32 && b != 9 && b != 10 && b != 13) || b == 127
  t.glyphs.all (fun g => g.valid && g.code != 0xFFFD) && !t.any control &&
    (t.zip (t.drop 1 ++ [0])).all fun (a, b) => a != 13 || b == 10

/-- Drops the mark that tells the encoding. -/
def dropMark (t : Text) : Text :=
  match t with
  | 0xEF :: 0xBB :: 0xBF :: rest => rest
  | 0xFF :: 0xFE :: rest => rest
  | 0xFE :: 0xFF :: rest => rest
  | _ => t

/-- The statements of a document. -/
def ofText? (t : Text) : Option (List Statement) :=
  let t := dropMark t
  if isPlain t then statements? (List.count 10 t) (t.length + 1) t else none

end Written

end Toml

end ThreeAddress
