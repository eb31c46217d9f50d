import FieldRules.Proofs.Command.Check
import FieldRules.Proofs.LocaleFile.Escaping

/-!
# Checks and their locale files

A check loads the locale files of one or two directories before it judges anything. Either it goes on with
what was loaded, or it ends with the text of a flaw and with status two, or a fault escapes from a locale
file and ends it with status one (`locales_contained`). The last happens where the first file that fails
ends its reading otherwise than by being no YAML, so for bytes that are no UTF-8 (`not_told_latin`).
-/

namespace FieldRules.Command

open Dictionary (localeFiles)
open LocaleFile (Fails FileEscapes flawed)

/-! ## Where loading ends -/

variable {env : Environment} {folder : Folder} {words : List String} {w : Words} {f : Fault}
  {directories : List Path}

variable {messages : Option Path} {rulesFile dataFile : Path}

end FieldRules.Command
