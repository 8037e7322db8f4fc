import ThreeAddress.Source.FileSet
import ThreeAddress.Syntax.Json
import ThreeAddress.Text.Quoted
import ThreeAddress.Token.Basic

/-!
# Token listings

The tokens of a file as a numbered table and as a JSON document.  The end of the file is not
listed.
-/

namespace ThreeAddress

/-- Tokens with their numbers, up to the end of the file. -/
def numberedTokens (ts : List Token) : List (Token × Nat) :=
  (ts.takeWhile (·.kind != .eof)).zipIdx 1

/-- The table of tokens. -/
def tokenTable (ts : List Token) : Text :=
  Text.lines ((numberedTokens ts).map fun (t, i) =>
    Text.padStart 2 (Text.ofNat i) ++ ". " ++ Text.padEnd 15 t.kind.name ++ " | " ++
      Text.quoted t.text)

/-- The document of tokens; positions are `0` without files. -/
def tokensJson (fs : Option FileSet) (ts : List Token) : Json :=
  .array ((numberedTokens ts).map fun (t, i) =>
    let p := (fs.bind (·.resolve? t.span)).map (·.1)
    .record [
      [("kind", .string t.kind.name)],
      Json.textField "text" t.text,
      [("span", t.span.json),
        ("line", .nat ((p.map (·.line.toNat)).getD 0)),
        ("col", .nat ((p.map (·.column.toNat)).getD 0)),
        ("index", .nat i)]])

end ThreeAddress
