import ThreeAddress.Text.Basic

/-!
# Dictionaries

A dictionary is a list of entries with distinct keys, in the order in which the keys were first
inserted.  Reports that list a dictionary by key sort its entries.
-/

namespace ThreeAddress

/-- A finite map from texts, as a list of entries. -/
structure Dict (α : Type) where
  entries : List (Text × α) := []
deriving Repr

namespace Dict

variable {α : Type}

instance : EmptyCollection (Dict α) := ⟨⟨[]⟩⟩

instance : Inhabited (Dict α) := ⟨∅⟩

/-- The value under a key. -/
def get? (d : Dict α) (k : Text) : Option α := (d.entries.find? (·.1 == k)).map (·.2)

/-- Whether a key is present. -/
def contains (d : Dict α) (k : Text) : Bool := d.entries.any (·.1 == k)

/-- Puts a value under a key; a key already present keeps its place. -/
def insert (d : Dict α) (k : Text) (v : α) : Dict α :=
  if d.contains k then ⟨d.entries.map fun e => if e.1 == k then (k, v) else e⟩
  else ⟨d.entries ++ [(k, v)]⟩

/-- Changes the value under a key by `f`, which starts from `start` if the key is new. -/
def adjust (d : Dict α) (k : Text) (start : α) (f : α → α) : Dict α :=
  d.insert k (f ((d.get? k).getD start))

/-- Removes a key. -/
def erase (d : Dict α) (k : Text) : Dict α := ⟨d.entries.filter (·.1 != k)⟩

/-- The keys, in the order of insertion. -/
def keys (d : Dict α) : List Text := d.entries.map (·.1)

/-- The number of keys. -/
def size (d : Dict α) : Nat := d.entries.length

/-- The dictionary of a list of entries; of two entries with one key the later wins. -/
def ofList (es : List (Text × α)) : Dict α := es.foldl (fun d e => d.insert e.1 e.2) ∅

/-- The entries in the order of their keys. -/
def sorted (d : Dict α) : List (Text × α) :=
  d.entries.mergeSort fun a b => decide (a.1 ≤ b.1)

/-- Applies `f` to every value. -/
def mapValues {β : Type} (f : α → β) (d : Dict α) : Dict β :=
  ⟨d.entries.map fun e => (e.1, f e.2)⟩

end Dict

end ThreeAddress
