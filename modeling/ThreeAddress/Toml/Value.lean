import ThreeAddress.Text.Utf8

/-!
# Values of a settings document

A document in TOML is a table of tables and values.  An array that was written as a series of
table headers is kept apart from an array written as a value, since only the former can grow.
-/

namespace ThreeAddress

namespace Toml

/-- A key with its dotted parts. -/
abbrev Key := List Text

/-- A value. -/
inductive Value where
  | string (text : Text)
  | integer (value : Int)
  | float (value : Float)
  | boolean (value : Bool)
  | time (text : Text)
  | array (items : List Value)
  | table (entries : List (Text × Value))
  | tables (rows : List (List (Text × Value)))
deriving Inhabited

/-- The entries of a table. -/
abbrev Table := List (Text × Value)

/-- What a value is called when it stands where another kind of value is needed. -/
def Value.kind : Value → Text
  | string _ => "string"
  | integer _ => "int64"
  | float _ => "float64"
  | boolean _ => "bool"
  | time _ => "time.Time"
  | array _ => "[]interface \x7b\x7d"
  | table _ => "map[string]interface \x7b\x7d"
  | tables _ => "[]map[string]interface \x7b\x7d"

namespace Key

/-- Whether a byte may stand in a part without quotes. -/
def isBare (b : UInt8) : Bool :=
  (97 ≤ b && b ≤ 122) || (65 ≤ b && b ≤ 90) || (48 ≤ b && b ≤ 57) || b == 95 || b == 45

/-- A byte of a quoted part. -/
def escape (b : UInt8) : Text :=
  match b with
  | 34 => "\\\""
  | 92 => "\\\\"
  | 8 => "\\b"
  | 9 => "\\t"
  | 10 => "\\n"
  | 12 => "\\f"
  | 13 => "\\r"
  | b => if b < 32 || b == 127 then "\\u" ++ Text.hex 4 b.toNat else [b]

/-- A part, in quotes if it needs them. -/
def part (t : Text) : Text :=
  if !t.isEmpty && t.all isBare then t else "\"" ++ t.flatMap escape ++ "\""

/-- A key as it is written in a document. -/
def shown (k : Key) : Text := Text.join "." (k.map part)

end Key

end Toml

end ThreeAddress
