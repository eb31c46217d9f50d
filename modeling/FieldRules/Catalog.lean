import FieldRules.Definition

/-!
# The catalog and its overlays

The catalog holds the validators that everybody can use; its names are never given twice. An
overlay holds the validators of one engine, which stand before those of the catalog.

Registering in the catalog moves the messages of a definition into the dictionary, where they can
be replaced one by one. Registering in an overlay leaves catalog and dictionary alone.
-/

namespace FieldRules

/-- The validators that everybody can use, by name. -/
structure Catalog where
  definitions : Table String Definition := []

namespace Catalog

/-- The definition under a name. -/
def get? (c : Catalog) (name : String) : Option Definition := Table.get? c.definitions name

/-- A name is taken. -/
def has (c : Catalog) (name : String) : Bool := Table.has c.definitions name

/-- The names in ascending order. -/
def names (c : Catalog) : List String := sortedTexts (Table.keys c.definitions)

/-- The messages of a definition as leaves to be merged into the dictionary under its name. -/
def messageLeaves (d : Definition) : Dictionary.Partial :=
  d.messages.map fun e => (e.1, .ok [(.text d.name, e.2)])

/-- Registers a definition for everybody. A name that is taken is refused before the definition is
looked at; messages that were merged before a flaw was found stay. -/
def register (c : Catalog) (dictionary : Dictionary) (name : String) (supplied : Supplied) :
    Catalog × Dictionary × Except SetupError Definition :=
  if c.has name then (c, dictionary, .error (.duplicate name))
  else match Definition.normalize name supplied with
    | .error e => (c, dictionary, .error e)
    | .ok d => match dictionary.update (messageLeaves d) with
      | (dictionary, .error flaw) => (c, dictionary, .error (.dictionary flaw))
      | (dictionary, .ok ()) =>
        let kept := { d with messages := [], shared := true }
        (⟨Table.put c.definitions name kept⟩, dictionary, .ok kept)

end Catalog

/-- The validators of one engine, by name. -/
structure Overlay where
  definitions : Table String Definition := []

namespace Overlay

/-- A name is registered in the overlay. -/
def has (o : Overlay) (name : String) : Bool := Table.has o.definitions name

/-- The names of the overlay in ascending order. -/
def names (o : Overlay) : List String := sortedTexts (Table.keys o.definitions)

/-- Registers a definition in the overlay, in place of one with the same name. -/
def register (o : Overlay) (name : String) (supplied : Supplied) :
    Overlay × Except SetupError Definition :=
  match Definition.normalize name supplied with
  | .error e => (o, .error e)
  | .ok d =>
    let kept := { d with shared := false }
    (⟨Table.put o.definitions name kept⟩, .ok kept)

/-- The definition that a name stands for: that of the overlay, or else that of the catalog. -/
def resolve (o : Overlay) (c : Catalog) (name : String) : Option Definition :=
  match Table.get? o.definitions name with
  | some d => some d
  | none => c.get? name

end Overlay

end FieldRules
