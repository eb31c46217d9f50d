import FieldRules.Message
import FieldRules.Path
import FieldRules.Value.Key

/-!
# Configuration

What engines start with is taken from the environment: the locale of messages and a directory of
locale files. An empty setting counts as none.
-/

namespace FieldRules

/-- The settings of the environment by name. -/
abbrev Environment := Table String String

/-- The defaults of engines. -/
structure Config where
  locale : String := englishLocale
  localeDirectory : Option Path := none
deriving Repr, DecidableEq

namespace Config

/-- A setting that is there and is not empty. -/
def setting? (env : Environment) (name : String) : Option String :=
  (Table.get? env name).filter fun s => !s.isEmpty

/-- The defaults that the environment gives. -/
def ofEnvironment (env : Environment) : Config where
  locale := (setting? env "RULEFORGE_LOCALE").getD englishLocale
  localeDirectory := (setting? env "RULEFORGE_LOCALE_DIR").map Path.ofText

/-- The locale of a new engine: the one that was asked for, unless that is empty. -/
def engineLocale (c : Config) (asked : Option String) : String :=
  (asked.filter fun s => !s.isEmpty).getD c.locale

end Config

end FieldRules
