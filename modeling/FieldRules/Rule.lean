import FieldRules.Table
import FieldRules.Text.Blank

/-!
# Rules

The rules of a field are written as one line, rule after rule:

    required|min:3|in:draft,published

A rule is a name, and after a colon its parameters with commas between. There is no escape: a
parameter can hold neither a bar nor a comma, and only the first colon of a rule ends its name.
White space around names and parameters does not count, nor do empty rules. Whether a name is
known is not asked here.
-/

namespace FieldRules

open FieldRules.Text

/-- One rule: the name of a validator and the parameters it is called with. -/
structure Rule where
  name : String
  params : List String := []
deriving Repr, DecidableEq, Inhabited

namespace Rule

/-- A rule as it is written: the name, and the parameters if there are any. -/
def toText (r : Rule) : String :=
  if r.params.isEmpty then r.name else r.name ++ ":" ++ String.intercalate "," r.params

/-- The rule that a text between two bars stands for. -/
def ofToken (token : List Char) : Rule :=
  let token := trim token
  let name := String.ofList (trim (token.takeWhile (· != ':')))
  match token.dropWhile (· != ':') with
  | [] => { name }
  | _ :: params =>
    { name, params := (params.splitOn ',').map fun p => String.ofList (trim p) }

/-- Reads one rule. -/
def ofText (token : String) : Rule := ofToken token.toList

/-- Reads rules from the characters of a line: its parts between bars, the blank ones left out. -/
def readChars (line : List Char) : List Rule :=
  (((trim line).splitOn '|').filter fun token => !(trim token).isEmpty).map ofToken

/-- Reads the rules of a line. -/
def readAll (line : String) : List Rule := readChars line.toList

/-- Writes rules as one line. -/
def writeAll (rules : List Rule) : String := String.intercalate "|" (rules.map toText)

end Rule

end FieldRules
