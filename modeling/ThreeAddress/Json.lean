import ThreeAddress.Text.Utf8

/-!
# JSON documents

A JSON value with object fields in writing order, and its two written forms: on one line, or over
several lines with two blanks of indentation per level.  Text is read as UTF-8; what is not
well-formed is written as the replacement character.  Characters that matter to HTML are escaped.
-/

namespace ThreeAddress

/-- A JSON value.  Numbers are given by their text. -/
inductive Json where
  | null
  | bool (b : Bool)
  | number (digits : Text)
  | string (t : Text)
  | array (items : List Json)
  | object (fields : List (Text × Json))

namespace Json

instance : Inhabited Json := ⟨null⟩

/-- A natural number. -/
def nat (n : Nat) : Json := .number (Text.ofNat n)

/-- An integer. -/
def int (n : Int) : Json := .number (Text.ofInt n)

/-- An array of texts. -/
def strings (ts : List Text) : Json := .array (ts.map .string)

/-- The array of a non-empty list; an empty list is absent. -/
def arrayOrNull (items : List Json) : Json := if items.isEmpty then .null else .array items

/-- A field that is left out if its text is empty. -/
def textField (key : Text) (t : Text) : List (Text × Json) :=
  if t.isEmpty then [] else [(key, .string t)]

/-- A field that is left out if its list is empty. -/
def listField (key : Text) (items : List Json) : List (Text × Json) :=
  if items.isEmpty then [] else [(key, .array items)]

/-- A field that is left out if its number is zero. -/
def natField (key : Text) (n : Nat) : List (Text × Json) :=
  if n = 0 then [] else [(key, .nat n)]

/-- A field that is left out if it is false. -/
def flagField (key : Text) (b : Bool) : List (Text × Json) :=
  if b then [(key, .bool true)] else []

/-- An object from groups of fields, some of which may be left out. -/
def record (groups : List (List (Text × Json))) : Json := .object groups.flatten

/-- The escaped form of a code point inside a string. -/
def escapeCode (c : Nat) : Text :=
  if c = 34 then "\\\""
  else if c = 92 then "\\\\"
  else if c = 8 then "\\b"
  else if c = 12 then "\\f"
  else if c = 10 then "\\n"
  else if c = 13 then "\\r"
  else if c = 9 then "\\t"
  else if c < 0x20 ∨ c = 60 ∨ c = 62 ∨ c = 38 ∨ c = 0x2028 ∨ c = 0x2029 then
    "\\u" ++ Text.hex 4 c
  else Text.ofCode c

/-- A text between quotes.  A byte that belongs to no character is written as the replacement
character, not as its escape. -/
def quote (t : Text) : Text := "\"" ++ t.glyphs.flatMap (fun g => escapeCode g.code) ++ "\""

mutual

/-- The value on one line. -/
def compact : Json → Text
  | null => "null"
  | bool true => "true"
  | bool false => "false"
  | number digits => digits
  | string t => quote t
  | array items => "[" ++ compactItems items ++ "]"
  | object fields => "\x7b" ++ compactFields fields ++ "\x7d"

/-- The items of an array on one line. -/
def compactItems : List Json → Text
  | [] => []
  | [v] => compact v
  | v :: rest => compact v ++ "," ++ compactItems rest

/-- The fields of an object on one line. -/
def compactFields : List (Text × Json) → Text
  | [] => []
  | [(k, v)] => quote k ++ ":" ++ compact v
  | (k, v) :: rest => quote k ++ ":" ++ compact v ++ "," ++ compactFields rest

end

/-- A new line indented to the given level. -/
def newline (level : Nat) : Text := 10 :: Text.blanks (2 * level)

mutual

/-- The value over several lines, where its last line is indented to `level`, in front of `rest`. -/
def prettyOnto (level : Nat) (rest : Text) : Json → Text
  | null => "null" ++ rest
  | bool true => "true" ++ rest
  | bool false => "false" ++ rest
  | number digits => digits ++ rest
  | string t => quote t ++ rest
  | array [] => "[]" ++ rest
  | array (v :: vs) => "[" ++ prettyItems level (newline level ++ "]" ++ rest) (v :: vs)
  | object [] => "\x7b\x7d" ++ rest
  | object (f :: fs) => "\x7b" ++ prettyFields level (newline level ++ "\x7d" ++ rest) (f :: fs)

/-- The items of an array, each on lines of its own, in front of `rest`. -/
def prettyItems (level : Nat) (rest : Text) : List Json → Text
  | [] => rest
  | [v] => newline (level + 1) ++ prettyOnto (level + 1) rest v
  | v :: vs => newline (level + 1) ++ prettyOnto (level + 1) ("," ++ prettyItems level rest vs) v

/-- The fields of an object, each on lines of its own, in front of `rest`. -/
def prettyFields (level : Nat) (rest : Text) : List (Text × Json) → Text
  | [] => rest
  | [(k, v)] => newline (level + 1) ++ quote k ++ ": " ++ prettyOnto (level + 1) rest v
  | (k, v) :: fs =>
    newline (level + 1) ++ quote k ++ ": " ++
      prettyOnto (level + 1) ("," ++ prettyFields level rest fs) v

end

/-- A document: the value over several lines, ended by a newline. -/
def document (v : Json) : Text := v.prettyOnto 0 "\n"

end Json

end ThreeAddress
