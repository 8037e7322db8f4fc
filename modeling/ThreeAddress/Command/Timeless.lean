import ThreeAddress.Text.Basic

/-!
# Reports without times

Two runs of a command print the same but for the times they took.  Here the times in a report are
replaced by signs, so that reports can be compared.
-/

namespace ThreeAddress

namespace Timeless

/-- Replaces what `find` finds: it gives the number of bytes at the front of a text to be replaced,
which is not zero, and what stands for them.  The first `skip` bytes are left out. -/
def replace (find : Text → Option (Nat × Text)) : (skip : Nat) → Text → Text
  | _, [] => []
  | skip + 1, _ :: rest => replace find skip rest
  | 0, b :: rest =>
    match find (b :: rest) with
    | some (n, sign) => sign ++ replace find (n - 1) rest
    | none => b :: replace find 0 rest

/-- Whether a byte is a decimal digit. -/
def isDigit (b : UInt8) : Bool := 48 ≤ b && b ≤ 57

/-- Whether a byte may belong to a number. -/
def isNumeral (b : UInt8) : Bool :=
  isDigit b || b == Text.byte '.' || b == Text.byte '-' || b == Text.byte '+' || b == Text.byte 'e'

/-- A field of milliseconds in a document, or in a document inside of a string. -/
def field (t : Text) : Option (Nat × Text) :=
  let keys : List Text := ["_ms\": ", "_ms\":", "_ms\\\": ", "_ms\\\":"]
  match keys.find? (·.isPrefixOf t) with
  | none => none
  | some key =>
    let number := (t.drop key.length).takeWhile isNumeral
    if number.isEmpty then none else some (key.length + number.length, key ++ "<ms>")

/-- A decimal number of milliseconds. -/
def amount (t : Text) : Option (Nat × Text) :=
  let whole := t.takeWhile isDigit
  match t.dropWhile isDigit with
  | 46 :: rest =>
    let decimals := rest.takeWhile isDigit
    let unit : Text := " ms"
    if whole.isEmpty || decimals.isEmpty || !unit.isPrefixOf (rest.dropWhile isDigit) then none
    else some (whole.length + 1 + decimals.length, "<ms>")
  | _ => none

/-- The starts of the lines of a build's summary. -/
def summaryStarts : List Text := ["    done  ", "  cached  ", "   error  "]

/-- The line of a build's summary, without its last column. -/
def elapsed (line : Text) : Text :=
  let last := (line.reverse.takeWhile (· != 32)).reverse
  let front := line.take (line.length - last.length)
  let gap : Text := "  "
  if summaryStarts.any (·.isPrefixOf line) && !last.isEmpty && gap.isSuffixOf front then
    front ++ "<elapsed>"
  else line

/-- The form of a time of day at the start of a line, with a zero for each digit. -/
def clockForm : Text := "00:00:00.000000 "

/-- A line without the time of day at its start. -/
def clock (line : Text) : Text :=
  let form := (line.take clockForm.length).map fun b => if isDigit b then 48 else b
  if form == clockForm then "<time> " ++ line.drop clockForm.length else line

end Timeless

open Timeless in
/-- A report without the times in it. -/
def Text.timeless (t : Text) : Text :=
  let masked := replace amount 0 (replace field 0 t)
  Text.join "\n" ((Text.splitByte 10 masked).map fun line => clock (elapsed line))

end ThreeAddress
