import ThreeAddress.Json
import ThreeAddress.Symbol.Table
import ThreeAddress.Text.Width

/-!
# Symbol listings

The symbols of a table as lines of text and as a JSON document.
-/

namespace ThreeAddress

namespace Symbol

/-- The line of a symbol. -/
def line (s : Symbol) : Text :=
  let kind : Text := if s.isFunction then "function" else "variable"
  let params : Text :=
    if s.isFunction then "(" ++ Text.join ", " (s.params.map DataType.name) ++ ")" else []
  let address : Text := match s.address with
    | some n => " @" ++ Text.ofNat n
    | none => []
  "  " ++ Text.padColumns 15 s.name ++ " | " ++ Text.padEnd 8 kind ++ " | " ++
    Text.padEnd 8 s.type.name ++ params ++ address

/-- The object of a symbol. -/
def json (s : Symbol) : Json :=
  .record [
    [("name", .string s.name), ("type", .string s.type.name), ("scope", .nat s.scope),
      ("isFunction", .bool s.isFunction)],
    Json.listField "parameters" (s.params.map fun t => .string t.name),
    [("address", .nat (s.address.getD 0)), ("hasAddress", .bool s.address.isSome)]]

end Symbol

/-- The lines of symbols. -/
def symbolLines (ss : List Symbol) : Text :=
  if ss.isEmpty then "  (No symbols declared)\n" else Text.lines (ss.map Symbol.line)

end ThreeAddress
