/-!
# Scoped operations

An operation of a class of things that each single thing may do in its own way: asked of the class,
the operation of the class is done; asked of a thing, that of the thing, if there is one, and
otherwise that of the thing's class.
-/

namespace FieldRules

/-- Who an operation is asked of: a class, or a thing of a class. -/
inductive Receiver (Class Thing : Type) where
  | whole (c : Class)
  | single (t : Thing)
deriving Repr

/-- An operation of a class, and perhaps one of its things, with the text that describes it. -/
structure Scoped (Class Thing α : Type) where
  ofClass : Class → α
  ofThing : Option (Thing → α) := none
  description : String := ""

namespace Scoped

/-- Gives the things of the class an operation of their own. -/
def withThing {Class Thing α : Type} (s : Scoped Class Thing α) (f : Thing → α) :
    Scoped Class Thing α :=
  { s with ofThing := some f }

/-- The operation for whoever it is asked of. -/
def apply {Class Thing α : Type} (s : Scoped Class Thing α) (classOf : Thing → Class) :
    Receiver Class Thing → α
  | .whole c => s.ofClass c
  | .single t => match s.ofThing with
    | some f => f t
    | none => s.ofClass (classOf t)

end Scoped

end FieldRules
