/-!
# Tables

A table holds values under keys in the order in which the keys came. Putting a value under a key
that is there already keeps the key's place.
-/

namespace FieldRules

/-- Values under distinct keys, in the order of the keys' first arrival. -/
abbrev Table (κ α : Type) := List (κ × α)

namespace Table

variable {κ α : Type} [DecidableEq κ]

/-- The value under a key. -/
def get? (t : Table κ α) (k : κ) : Option α := (t.find? fun e => e.1 = k).map (·.2)

/-- A key is in use. -/
def has (t : Table κ α) (k : κ) : Bool := t.any fun e => e.1 = k

/-- Puts a value under a key, in the key's place if it has one and at the end otherwise. -/
def put : Table κ α → κ → α → Table κ α
  | [], k, v => [(k, v)]
  | e :: t, k, v => if e.1 = k then (k, v) :: t else e :: put t k v

/-- Takes a key and its value out. -/
def remove (t : Table κ α) (k : κ) : Table κ α := t.filter fun e => ¬ e.1 = k

/-- The keys in order. -/
def keys (t : Table κ α) : List κ := t.map (·.1)

/-- The table that comes from putting pairs one after the other. -/
def ofPairs (pairs : List (κ × α)) : Table κ α := pairs.foldl (fun t e => put t e.1 e.2) []

end Table

/-- Texts in ascending order, compared character by character. -/
def sortedTexts (xs : List String) : List String := xs.mergeSort fun a b => decide (a ≤ b)

end FieldRules
