import ThreeAddress.Source.File

/-!
# Cursors

A cursor is a place in a file: an offset together with the bytes from there on.
-/

namespace ThreeAddress

/-- A place in the content of a file. -/
structure Cursor where
  file : FileId
  content : Text
  offset : Nat := 0
  rest : Text := content
  rest_eq : rest = content.drop offset := by rfl

namespace Cursor

/-- The start of a file. -/
def ofFile (f : File) : Cursor := { file := f.id, content := f.content }

/-- The offset just past the last byte. -/
def limit (c : Cursor) : Nat := c.content.length

/-- Whether no byte is left. -/
def atEnd (c : Cursor) : Bool := c.rest.isEmpty

/-- The next byte, `0` at the end. -/
def peek (c : Cursor) : UInt8 := c.rest.headD 0

/-- The next two bytes, if there are two. -/
def peekTwo? (c : Cursor) : Option (UInt8 × UInt8) :=
  match c.rest with
  | a :: b :: _ => some (a, b)
  | _ => none

/-- The place `n` bytes further on. -/
def skip (c : Cursor) (n : Nat) : Cursor :=
  { c with
    offset := c.offset + n
    rest := c.rest.drop n
    rest_eq := by rw [c.rest_eq, List.drop_drop] }

/-- Reads one byte; at the end the cursor stays and the byte is `0`. -/
def bump (c : Cursor) : UInt8 × Cursor := if c.atEnd then (0, c) else (c.peek, c.skip 1)

/-- Reads the byte `b` if it is the next one. -/
def eat (c : Cursor) (b : UInt8) : Bool × Cursor :=
  if c.rest.head? == some b then (true, c.skip 1) else (false, c)

/-- The place at an offset of the same file. -/
def seek (c : Cursor) (offset : Nat) : Cursor :=
  { c with offset, rest := c.content.drop offset, rest_eq := rfl }

/-- The span from an offset up to the cursor. -/
def spanFrom (c : Cursor) (mark : Nat) : Span := ⟨c.file, mark.toUInt32, c.offset.toUInt32⟩

end Cursor

end ThreeAddress
