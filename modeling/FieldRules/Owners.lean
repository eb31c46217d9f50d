import FieldRules.Table

/-!
# Owners

Objects of a host each own one engine. The engine is made when an owner is first registered and
kept until the owner is taken out; the next registration makes a new one. Owners are told apart by
who they are, not by what they look like, so here they are plain names.
-/

namespace FieldRules

/-- The engines of registered owners; engines are given by number. -/
structure Owners where
  engines : Table String Nat := []
deriving Repr, DecidableEq

namespace Owners

/-- The engine of an owner. -/
def get? (o : Owners) (owner : String) : Option Nat := Table.get? o.engines owner

/-- The engine of an owner, which is `fresh` when there is none yet. -/
def register (o : Owners) (owner : String) (fresh : Nat) : Owners × Nat :=
  match o.get? owner with
  | some engine => (o, engine)
  | none => (⟨Table.put o.engines owner fresh⟩, fresh)

/-- Takes an owner out. -/
def unregister (o : Owners) (owner : String) : Owners := ⟨Table.remove o.engines owner⟩

/-- An owner is registered. -/
def has (o : Owners) (owner : String) : Bool := Table.has o.engines owner

/-- The number of registered owners. -/
def size (o : Owners) : Nat := o.engines.length

end Owners

end FieldRules
