import ThreeAddress.Command.Target
import ThreeAddress.Files.Access
import ThreeAddress.Project.Manifest

/-!
# Errors of commands

Why a command ends without success.  A program with errors is one reason; its findings are shown by
the command itself, so it has no wording of its own.
-/

namespace ThreeAddress

/-- Why a command fails. -/
inductive CommandError where
  | unknownCommand (word : Text)
  | unknownPart (word whole : Text)
  | line (error : LineError)
  | wordCount (expected : WordCount) (received : Nat)
  | nothingToComplete
  | manifest (error : ManifestError)
  | noRegisters (count : Int)
  | unknownFormat (format : Text) (known : List Text)
  | unknownVersionFormat (format : Text)
  | unknownChoice (option value : Text)
  | unknownSample (explanation : Text)
  | file (task : Text) (error : FileError)
  | failed (task explanation : Text)
  | findings
deriving Repr

namespace CommandError

/-- The list of commands that may have been meant. -/
def didYouMean (names : List Text) : Text :=
  if names.isEmpty then []
  else "\n\nDid you mean this?\n" ++ Text.lines (names.map fun n => 9 :: n)

/-- The wording of an error. -/
def message : CommandError → Text
  | unknownCommand word =>
    "unknown command " ++ word.quoted ++ " for " ++ programName.quoted ++
      didYouMean (Target.suggestions word)
  | unknownPart word whole => "unknown command " ++ word.quoted ++ " for " ++ whole.quoted
  | line e => e.message
  | wordCount expected received =>
    expected.wording ++ ", received " ++ Text.ofNat received
  | nothingToComplete => "requires at least 1 arg(s), only received 0"
  | manifest e => e.message
  | noRegisters count => "--registers must be positive, got " ++ Text.ofInt count
  | unknownFormat format known =>
    "unknown format: " ++ format ++ " (expected " ++ Text.join "|" known ++ ")"
  | unknownVersionFormat format =>
    "unsupported format " ++ format.quoted ++ " (must be pretty or json)"
  | unknownChoice option value =>
    "invalid --" ++ option ++ " value " ++ value.quoted ++ " (expected auto|on|off)"
  | unknownSample explanation => explanation
  | file task e => task ++ ": " ++ e.message
  | failed task explanation => task ++ ": " ++ explanation
  | findings => "compilation failed"

/-- What is shown of an error after the command. -/
def shown : CommandError → Text
  | findings => []
  | e => "error: " ++ e.message ++ "\n"

end CommandError

end ThreeAddress
