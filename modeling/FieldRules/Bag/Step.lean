import FieldRules.Bag

/-!
# What a bag is asked

The questions and changes that a bag answers, one by one, so that a run of them is a list.
-/

namespace FieldRules

namespace Bag

/-- A question to a bag, or a change of it. -/
inductive Step where
  | add (e : Entry)
  | remove (field : String)
  | clear
  | all
  | collect (field : String)
  | first (field : Option String)
  | has (field : Option String)
  | count
  | entries
  | sortByFields (order : List String)
  | byField
  | fields
  | describe
deriving Repr, DecidableEq

/-- What a bag answers. -/
inductive Reply where
  | nothing
  | entry (e : Entry)
  | number (n : Nat)
  | truth (b : Bool)
  | text (s : Option String)
  | texts (ss : List String)
  | entries (es : List Entry)
  | groups (gs : Table String (List String))
deriving Repr, DecidableEq

/-- The bag after a step, and its answer. -/
def step (b : Bag) : Step → Bag × Reply
  | .add e => (b.add e, .entry e)
  | .remove field => (b.remove field, .number (b.countOf field))
  | .clear => (empty, .nothing)
  | .all => (b, .texts b.all)
  | .collect field => (b, .texts (b.collect field))
  | .first field => (b, .text (b.first? field))
  | .has field => (b, .truth (b.has field))
  | .count => (b, .number b.count)
  | .entries => (b, .entries b.entries)
  | .sortByFields order => (b.sortByFields order, .nothing)
  | .byField => (b, .groups b.byField)
  | .fields => (b, .texts (b.entries.map (·.field)))
  | .describe => (b, .text (some b.toText))

end Bag

end FieldRules
