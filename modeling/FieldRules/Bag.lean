import FieldRules.Table
import FieldRules.Text.Quoted

/-!
# The bag of failures

A bag holds the messages of the rules that failed, each with the field it belongs to and, where
that is known, the rule. Entries stay in the order in which they came; they can be put in the order
of a list of fields.
-/

namespace FieldRules

/-- One failure. -/
structure Entry where
  field : String
  message : String
  rule : Option String := none
deriving Repr, DecidableEq, Inhabited

/-- Failures in order. -/
structure Bag where
  entries : List Entry := []
deriving Repr, DecidableEq, Inhabited

namespace Bag

/-- The entries of one field. -/
def entriesOf (b : Bag) (field : String) : List Entry := b.entries.filter (·.field == field)

/-- Adds a failure at the end. -/
def add (b : Bag) (e : Entry) : Bag := ⟨b.entries ++ [e]⟩

/-- Takes out every entry of a field. -/
def remove (b : Bag) (field : String) : Bag := ⟨b.entries.filter (·.field != field)⟩

/-- How many entries a field has. -/
def countOf (b : Bag) (field : String) : Nat := (b.entriesOf field).length

/-- A bag without entries. -/
def empty : Bag := {}

/-- All messages in order. -/
def all (b : Bag) : List String := b.entries.map (·.message)

/-- The messages of a field in order. -/
def collect (b : Bag) (field : String) : List String := (b.entriesOf field).map (·.message)

/-- The first message of a field, or of the whole bag. -/
def first? (b : Bag) : (field : Option String) → Option String
  | none => b.entries.head?.map (·.message)
  | some field => (b.entries.find? (·.field == field)).map (·.message)

/-- A field has an entry, or the bag has one. -/
def has (b : Bag) : (field : Option String) → Bool
  | none => !b.entries.isEmpty
  | some field => b.entries.any (·.field == field)

/-- The number of entries. -/
def count (b : Bag) : Nat := b.entries.length

/-! ## Order -/

/-- The place of a name in a list of names, counted from zero; the last one if the name comes more
than once. -/
def lastPlace? (order : List String) (name : String) : Option Nat :=
  (order.zipIdx.reverse.find? fun p => p.1 == name).map (·.2)

/-- The rank of a field in an order: its place, or the number of different names in the order for a
field that is not in it. -/
def rank (order : List String) (field : String) : Nat :=
  (lastPlace? order field).getD order.eraseDups.length

/-- Puts the entries in the order of their fields' ranks; entries of the same rank stay in order. -/
def sortByFields (b : Bag) (order : List String) : Bag :=
  ⟨b.entries.mergeSort fun x y => decide (rank order x.field ≤ rank order y.field)⟩

/-! ## Views -/

/-- The messages of each field, fields in order of their first entry. -/
def byField (b : Bag) : Table String (List String) :=
  b.entries.foldl (fun t e => t.put e.field ((t.get? e.field).getD [] ++ [e.message])) []

/-- The bag as a text: its messages by field. -/
def toText (b : Bag) : String :=
  let item (e : String × List String) : String :=
    Text.quoted e.1 ++ ": [" ++ String.intercalate ", " (e.2.map Text.quoted) ++ "]"
  "ErrorBag(\x7b" ++ String.intercalate ", " (b.byField.map item) ++ "\x7d)"

end Bag

end FieldRules
