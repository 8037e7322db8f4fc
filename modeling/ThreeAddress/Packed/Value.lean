import ThreeAddress.Text.Basic
import ThreeAddress.Word

/-!
# Packed values

Values in the MessagePack format: every value starts with a byte that tells its kind and, for small
values, its size or the value itself.  Reading takes at least one byte for each value, so the
length of the input bounds the depth of the recursion.
-/

namespace ThreeAddress

/-- A packed value. -/
inductive Packed where
  | nothing
  | boolean (value : Bool)
  | integer (value : Int)
  | text (value : Text)
  | list (items : List Packed)
  | record (fields : List (Text × Packed))
deriving Repr, Inhabited

namespace Packed

/-- The last `width` bytes of a number, the most significant first. -/
def bytes : (width : Nat) → (n : Nat) → Text
  | 0, _ => []
  | width + 1, n => bytes width (n / 256) ++ [(n % 256).toUInt8]

/-- The number that some bytes stand for. -/
def number (t : Text) : Nat := t.foldl (fun n b => n * 256 + b.toNat) 0

/-! ### Writing -/

/-- The head of a value with `size` parts: `small` with the size added for fewer than `limit` parts,
otherwise `large` and the size in four bytes. -/
def head (small limit large size : Nat) : Text :=
  if size < limit then [(small + size).toUInt8] else large.toUInt8 :: bytes 4 size

/-- A text with its head. -/
def writeText (t : Text) : Text := head 0xa0 32 0xdb t.length ++ t

/-- An integer; those from 0 to 127 take one byte. -/
def writeInteger (n : Int) : Text :=
  if 0 ≤ n ∧ n < 128 then [n.toNat.toUInt8] else 0xd3 :: bytes 8 (Word.ofInt n)

mutual

/-- The bytes of a value. -/
def write : Packed → Text
  | nothing => [0xc0]
  | boolean b => [if b then 0xc3 else 0xc2]
  | integer n => writeInteger n
  | text t => writeText t
  | list items => head 0x90 16 0xdd items.length ++ writeAll items
  | record fields => head 0x80 16 0xdf fields.length ++ writeFields fields

/-- The bytes of several values. -/
def writeAll : List Packed → Text
  | [] => []
  | v :: vs => write v ++ writeAll vs

/-- The bytes of several fields. -/
def writeFields : List (Text × Packed) → Text
  | [] => []
  | (name, v) :: rest => writeText name ++ write v ++ writeFields rest

end

/-! ### Reading -/

/-- Why bytes are no value. -/
inductive ReadError where
  | ended
  | unexpected (code : UInt8) (wanted : Text)
deriving Repr

/-- The wording of an error. -/
def ReadError.message : ReadError → Text
  | ended => "EOF"
  | unexpected code wanted =>
    "msgpack: unexpected code=" ++ Text.hex 2 code.toNat ++ " decoding " ++ wanted

/-- Takes so many bytes from the front. -/
def take (n : Nat) (t : Text) : Except ReadError (Text × Text) :=
  if t.length < n then .error .ended else .ok (t.take n, t.drop n)

/-- A number of so many bytes at the front. -/
def takeNumber (width : Nat) (t : Text) : Except ReadError (Nat × Text) := do
  let (bs, rest) ← take width t
  return (number bs, rest)

/-- A text at the front. -/
def readText : Text → Except ReadError (Text × Text)
  | [] => .error .ended
  | b :: rest => do
    if 0xa0 ≤ b ∧ b ≤ 0xbf then take (b.toNat - 0xa0) rest
    else if b = 0xdb then
      let (n, rest) ← takeNumber 4 rest
      take n rest
    else .error (.unexpected b "string length")

mutual

/-- The value at the front. -/
def read : (fuel : Nat) → Text → Except ReadError (Packed × Text)
  | 0, _ => .error .ended
  | _ + 1, [] => .error .ended
  | fuel + 1, b :: rest => do
    if b < 0x80 then return (.integer b.toNat, rest)
    else if b < 0x90 then
      let (fields, rest) ← readFields fuel (b.toNat - 0x80) rest
      return (.record fields, rest)
    else if b < 0xa0 then
      let (items, rest) ← readAll fuel (b.toNat - 0x90) rest
      return (.list items, rest)
    else if b < 0xc0 ∨ b = 0xdb then
      let (t, rest) ← readText (b :: rest)
      return (.text t, rest)
    else if b = 0xc0 then return (.nothing, rest)
    else if b = 0xc2 then return (.boolean false, rest)
    else if b = 0xc3 then return (.boolean true, rest)
    else if b = 0xd3 then
      let (n, rest) ← takeNumber 8 rest
      return (.integer (Word.toInt n), rest)
    else if b = 0xdd then
      let (n, rest) ← takeNumber 4 rest
      let (items, rest) ← readAll fuel n rest
      return (.list items, rest)
    else if b = 0xdf then
      let (n, rest) ← takeNumber 4 rest
      let (fields, rest) ← readFields fuel n rest
      return (.record fields, rest)
    else .error (.unexpected b "map length")

/-- So many values at the front. -/
def readAll : (fuel : Nat) → (count : Nat) → Text → Except ReadError (List Packed × Text)
  | _, 0, t => .ok ([], t)
  | 0, _ + 1, _ => .error .ended
  | fuel + 1, count + 1, t => do
    let (v, t) ← read fuel t
    let (vs, t) ← readAll fuel count t
    return (v :: vs, t)

/-- So many fields at the front. -/
def readFields :
    (fuel : Nat) → (count : Nat) → Text → Except ReadError (List (Text × Packed) × Text)
  | _, 0, t => .ok ([], t)
  | 0, _ + 1, _ => .error .ended
  | fuel + 1, count + 1, t => do
    let (name, t) ← readText t
    let (v, t) ← read fuel t
    let (fields, t) ← readFields fuel count t
    return ((name, v) :: fields, t)

end

/-- The value that some bytes stand for. -/
def ofBytes (t : Text) : Except ReadError Packed := (·.1) <$> read (2 * t.length + 2) t

end Packed

end ThreeAddress
