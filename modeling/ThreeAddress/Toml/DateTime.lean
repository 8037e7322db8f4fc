import ThreeAddress.Decimal.Read

/-!
# Dates and times

The forms of a date, a time of day, or both with an optional offset from universal time.  An hour
may have one digit.
-/

namespace ThreeAddress

namespace Toml

namespace DateTime

/-- Reads a number of between `least` and `most` digits that does not exceed `top`. -/
def number? (least most top : Nat) (t : Text) : Option (Nat × Text) :=
  let digits := (t.take most).takeWhile Decimal.isDigit
  let n := Decimal.digitsValue 10 digits
  if digits.length < least || top < n then none else some (n, t.drop digits.length)

/-- Reads one byte. -/
def mark? (b : Char) : Text → Option Text
  | a :: rest => if a = Text.byte b then some rest else none
  | [] => none

/-- The number of days of a month. -/
def daysIn (year month : Nat) : Nat :=
  if month = 2 then (if year % 4 = 0 ∧ (year % 100 ≠ 0 ∨ year % 400 = 0) then 29 else 28)
  else if month = 4 ∨ month = 6 ∨ month = 9 ∨ month = 11 then 30
  else 31

/-- Reads a date. -/
def date? (t : Text) : Option Text := do
  let (year, t) ← number? 4 4 9999 t
  let (month, t) ← number? 2 2 12 (← mark? '-' t)
  let (day, t) ← number? 2 2 (daysIn year month) (← mark? '-' t)
  if month = 0 ∨ day = 0 then none else some t

/-- Drops the fraction of a second. -/
def dropFraction (t : Text) : Text :=
  match t with
  | 46 :: d :: rest => if Decimal.isDigit d then rest.dropWhile Decimal.isDigit else t
  | _ => t

/-- Reads a time of day. -/
def clock? (t : Text) : Option Text := do
  let (_, t) ← number? 1 2 23 t
  let (_, t) ← number? 2 2 59 (← mark? ':' t)
  let (_, t) ← number? 2 2 59 (← mark? ':' t)
  return dropFraction t

/-- Reads an offset. -/
def offset? (t : Text) : Option Text :=
  match t with
  | 90 :: rest => some rest
  | b :: rest =>
    if b = Text.byte '+' ∨ b = Text.byte '-' then do
      let (_, t) ← number? 2 2 24 rest
      let (_, t) ← number? 2 2 60 (← mark? ':' t)
      return t
    else none
  | [] => none

/-- Letters in capitals, and a blank between date and time as the letter that stands there. -/
def normalize (t : Text) : Text :=
  t.map fun b => if b = 122 then 90 else if b = 116 ∨ b = 32 then 84 else b

/-- Whether a text is a date, a time of day, or both. -/
def isValid (t : Text) : Bool :=
  let t := normalize t
  let whole (o : Option Text) : Bool := o == some []
  let dated := do clock? (← mark? 'T' (← date? t))
  whole (dated.bind offset?) || whole dated || whole (date? t) || whole (clock? t)

end DateTime

end Toml

end ThreeAddress
