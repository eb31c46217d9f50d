import FieldRules.Catalog
import FieldRules.Checks.Address
import FieldRules.Checks.Characters
import FieldRules.Checks.Dimensions
import FieldRules.Checks.Form
import FieldRules.Checks.Length
import FieldRules.Checks.Network
import FieldRules.Checks.Numeric
import FieldRules.Checks.Uploads

/-!
# The validators that everybody has

The rule names that are known from the start, with what they check.
-/

namespace FieldRules.Builtin

/-- The predicates that answer at once, by name. -/
def predicates : Table String (Value → List Value → Except Fault Bool) := [
  ("alpha", Checks.alpha),
  ("alpha_dash", Checks.alphaDash),
  ("alpha_num", Checks.alphaNum),
  ("between", Checks.between),
  ("digits", Checks.digits),
  ("email", Checks.email),
  ("ext", Checks.ext),
  ("image", Checks.image),
  ("in", Checks.inList),
  ("ip", Checks.ip),
  ("max", Checks.max),
  ("mimes", Checks.mimes),
  ("min", Checks.min),
  ("not_in", Checks.notInList),
  ("numeric", Checks.numeric),
  ("regex", Checks.form),
  ("required", Checks.required),
  ("size", Checks.size),
  ("url", Checks.url)]

/-- The name of the validator that puts its answer off. -/
def dimensionsName : String := "dimensions"

/-- The validator of a name. -/
def validator? (name : String) : Option Validator :=
  if name = dimensionsName then some Checks.dimensions
  else (Table.get? predicates name).map Validator.ofPredicate

/-- The names that are known from the start. -/
def names : List String := Table.keys predicates ++ [dimensionsName]

/-- The definition of a name that is known from the start. -/
def definition? (name : String) : Option Definition :=
  (validator? name).map fun validate => { name, validate, kind := .builtin, shared := true }

/-- The catalog to start with. -/
def catalog : Catalog := ⟨names.filterMap fun n => (definition? n).map fun d => (n, d)⟩

end FieldRules.Builtin
