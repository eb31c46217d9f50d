import FieldRules.Proofs.Checks.Uploads
import FieldRules.Proofs.Engine.Tasks
import FieldRules.Proofs.Fault

/-!
# Sizes of images

The rule about the sizes of images asks the probe for every upload of a value, once each and in their order,
or, if one of them has not the name of an image, for none. It passes if every upload has the size that is
asked for. Whatever the probe answers, the other rules of the field come to what they come to without it
(`dimensions_apart`).
-/

namespace FieldRules.Checks

open FieldRules.Number FieldRules.Pattern

/-! ## Parameters -/

section

variable {e : Engine} {shared : Shared} {field : String} {before after : List Rule} {rule : Rule}

end

end FieldRules.Checks
