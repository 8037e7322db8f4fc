import ThreeAddress.Dict
import ThreeAddress.Packed.Value

/-!
# Codecs

A codec packs the values of a type and unpacks them again.  Codecs of records are made of codecs of
pairs, through a function to nested pairs and one back.
-/

namespace ThreeAddress

/-- A way to pack the values of a type. -/
structure Codec (α : Type) where
  pack : α → Packed
  unpack : Packed → Option α

namespace Codec

variable {α β : Type}

/-- Texts. -/
def text : Codec Text where
  pack := .text
  unpack
    | .text t => some t
    | _ => none

/-- Integers. -/
def int : Codec Int where
  pack := .integer
  unpack
    | .integer n => some n
    | _ => none

/-- Natural numbers. -/
def nat : Codec Nat where
  pack n := .integer n
  unpack
    | .integer n => if 0 ≤ n then some n.toNat else none
    | _ => none

/-- Truth values. -/
def bool : Codec Bool where
  pack := .boolean
  unpack
    | .boolean b => some b
    | _ => none

/-- Lists. -/
def list (c : Codec α) : Codec (List α) where
  pack xs := .list (xs.map c.pack)
  unpack
    | .list items => items.mapM c.unpack
    | _ => none

/-- Values that may be missing. -/
def option (c : Codec α) : Codec (Option α) where
  pack
    | none => .nothing
    | some x => .list [c.pack x]
  unpack
    | .nothing => some none
    | .list [p] => (c.unpack p).map some
    | _ => none

/-- Pairs. -/
def pair (a : Codec α) (b : Codec β) : Codec (α × β) where
  pack x := .list [a.pack x.1, b.pack x.2]
  unpack
    | .list [p, q] => do return (← a.unpack p, ← b.unpack q)
    | _ => none

/-- A type whose values are packed as those of another. -/
def via (c : Codec β) (forth : α → β) (back : β → α) : Codec α where
  pack x := c.pack (forth x)
  unpack p := (c.unpack p).map back

/-- Dictionaries. -/
def dict (c : Codec α) : Codec (Dict α) := (list (pair text c)).via Dict.entries Dict.mk

end Codec

end ThreeAddress
