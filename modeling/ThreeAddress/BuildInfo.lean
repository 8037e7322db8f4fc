import ThreeAddress.Json
import ThreeAddress.Text.Blank
import ThreeAddress.Text.Style

/-!
# Build information

The version of the program, and where and when it was built if that is known.
-/

namespace ThreeAddress

/-- What is known of a build. -/
structure BuildInfo where
  version : Text := "0.1.0-dev"
  commit : Text := []
  message : Text := []
  date : Text := []
deriving Repr

namespace BuildInfo

/-- Drops the white space around every field; without a version it is a development build. -/
def normalize (b : BuildInfo) : BuildInfo :=
  let version := b.version.trim
  { version := if version.isEmpty then "dev" else version
    commit := b.commit.trim
    message := b.message.trim
    date := b.date.trim }

/-- The fields of a build; what is not known is left out. -/
def fields (b : BuildInfo) : List (Text × Json) :=
  let b := b.normalize
  let version : List (Text × Json) := [("version", .string b.version)]
  version ++ Json.textField "git_commit" b.commit ++ Json.textField "git_message" b.message ++
    Json.textField "build_date" b.date

/-- The object of a build. -/
def json (b : BuildInfo) : Json := .object b.fields

/-- The style of one of the three numbers of a version. -/
def numberStyle (c : Colour) : Style := { colour := some c, bold := true }

/-- The version with a colour for each of its three numbers.  A version of another form is left
plain. -/
def coloured (b : BuildInfo) (color : Bool) : Text :=
  let version := b.normalize.version
  let core := version.takeWhile (· != Text.byte '-')
  let suffix := (version.dropWhile (· != Text.byte '-')).drop 1
  match Text.splitByte (Text.byte '.') core with
  | [major, minor, patch] =>
    let rest : Text := if suffix.isEmpty then [] else "-" ++ suffix
    let painted (c : Colour) (t : Text) : Text := (numberStyle c).paint color t
    painted .yellow major ++ "." ++ painted .green minor ++ "." ++ painted .blue patch ++ rest
  | _ => version

end BuildInfo

end ThreeAddress
