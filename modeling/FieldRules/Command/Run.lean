import FieldRules.Command.Arguments
import FieldRules.Host
import FieldRules.Json

/-!
# The commands

`check` judges the values of a data file by the rules of a rules file, `parse` shows how rules are
read, `validators` lists the names that rules can use. A command sees the environment and the files
as they are when it is called, and answers with a status and lines of text.
-/

namespace FieldRules.Command

/-- What a command comes to. -/
structure Result where
  status : Nat := 0
  /-- Lines of the answer. -/
  lines : List String := []
  /-- The text of an error. -/
  error : Option String := none
  /-- The fault that ended the command. -/
  fault : Option Fault := none
deriving Repr, DecidableEq

/-- Why a command ends early. -/
inductive Stop where
  | usage (e : UsageError)
  | setup (e : SetupError)
  | fault (f : Fault)
deriving Repr, DecidableEq

/-- The result of a command that ended early. -/
def Stop.result : Stop → Result
  | usage e => { status := 2, error := some e.message }
  | setup e => { status := 2, error := some e.message }
  | fault f => { status := 1, fault := some f }

/-- A fault ends a command early; a setup error is told. -/
def stopBy : Fault → Stop
  | .setup e => .setup e
  | f => .fault f

/-! ## Files -/

/-- What stands at the path that a text writes: no file, if the text ends with a slash, and nothing
if it is empty. -/
def itemAt? (folder : Folder) (text : String) : Option FolderItem :=
  if text.isEmpty then none
  else (folder.item? (Path.ofText text)).filter fun item =>
    item == .directory || text.toList.getLast? != some '/'

/-- A path that was given for a parameter: there must be a file, or a directory. -/
def existing (folder : Folder) (param : String) (isFile : Bool) (text : String) :
    Except UsageError Path :=
  match itemAt? folder text with
  | none => .error (.notThere param isFile text)
  | some item =>
    if (item == .directory) == isFile then .error (.otherKind param isFile text)
    else .ok (Path.ofText text)

/-- The text of a file: UTF-8, with every end of line as a line feed. -/
def fileText (bytes : Bytes) : Except Fault (List Char) :=
  match Text.decodeUtf8? bytes with
  | none => .error .notUtf8
  | some text => .ok (Text.unifyLines text)

/-- The value that a data file holds: JSON by its extension, and YAML otherwise. -/
def readData (yaml : YamlReader) (path : Path) (bytes : Bytes) : Except Fault Value :=
  if path.suffix = ".json" then fileText bytes >>= Json.read
  else (yaml.read bytes).mapError ReadFault.toFault

/-- The entries of the mapping that a file holds; a file that holds nothing has none. -/
def loadMapping (folder : Folder) (path : Path) : Except Stop (List (Value × Value)) :=
  match folder.bytes? path with
  | none => .error (.fault .noSuchFile)
  | some bytes => match readData folder.yaml path bytes with
    | .error f => .error (.fault f)
    | .ok .null => .ok []
    | .ok (.dict es) => .ok es
    | .ok _ => .error (.usage (.notMapping path.toText))

/-- The rules of fields; no value stands for no rules. -/
def rulesOf (es : List (Value × Value)) : Table String (List Rule) :=
  Table.ofPairs (es.map fun e => (e.1.asText, Rule.readAll e.2.fieldText))

/-! ## Checking -/

/-- Merges the locale files of directories in, one directory after the other. -/
def loadLocales (folder : Folder) (d : Dictionary) : List Path → Except Stop Dictionary
  | [] => .ok d
  | p :: ps => match d.loadDirectory folder p with
    | (_, .error f) => .error (stopBy f)
    | (d, .ok _) => loadLocales folder d ps

/-- Validates every field of an engine to the end. -/
def validateFully (e : Engine) (shared : Shared) (values : String → Value) : Engine × Bool :=
  let (e, verdict) := e.validateAll shared values
  match verdict.result with
  | .known passed => (e, passed)
  | .pending verdicts =>
    let job := ((Job.ofForm verdicts).start Image.probe).result
    let (e, job) := job.advance [] shared e
    (e.sortBag, job.result?.getD false)

/-- The result of a check: a line for each failure and their number, or one line of success. -/
def report (fields : Nat) (bag : Bag) (passed : Bool) : Result :=
  if passed then { lines := ["All fields are valid (" ++ toString fields ++ " checked)."] }
  else
    { status := 1
      lines := bag.entries.map (fun e => e.field ++ ": " ++ e.message)
        ++ ["", toString bag.count ++ " error(s) found"] }

/-- The options of `check`. -/
def checkOptions : List OptionSpec :=
  [{ long := "--locale", takesValue := true }, { long := "--messages", takesValue := true },
    helpOption]

/-- The words of `check`: the directory of messages if one is given, the file of rules, the file of
values. They are looked at in this order. -/
def checkPaths (folder : Folder) (w : Words) : Except UsageError (Option Path × Path × Path) := do
  let messages ← match w.value? "--messages" with
    | none => pure none
    | some text => some <$> existing folder "--messages" false text
  let rulesFile ← match w.plain with
    | [] => .error (.missingArgument "RULES_FILE")
    | text :: _ => existing folder "RULES_FILE" true text
  let dataFile ← match w.plain.drop 1 with
    | [] => .error (.missingArgument "DATA_FILE")
    | text :: _ => existing folder "DATA_FILE" true text
  match w.plain.drop 2 with
  | [] => return (messages, rulesFile, dataFile)
  | extra => .error (.extraArguments extra)

/-- Judges the values of a file by the rules of another. -/
def check (env : Environment) (folder : Folder) (w : Words) : Except Stop Result := do
  let (messages, rulesFile, dataFile) ← (checkPaths folder w).mapError .usage
  let config := Config.ofEnvironment env
  let dictionary ← loadLocales folder Dictionary.bundled
    (config.localeDirectory.toList ++ messages.toList)
  let rules := rulesOf (← loadMapping folder rulesFile)
  let values ← loadMapping folder dataFile
  let locale := config.engineLocale (w.value? "--locale")
  let shared : Shared := { catalog := Builtin.catalog, dictionary }
  let (e, passed) := validateFully (Engine.ofRules rules (.text locale) []) shared fun field =>
    (Value.lookupText values field).getD .null
  return report rules.length e.bag passed

/-! ## The other commands -/

/-- A rule as a line: the name, the parameters as literals, and whether the name is not known. -/
def ruleLine (r : Rule) : String :=
  r.name ++ "(" ++ String.intercalate ", " (r.params.map Text.quoted) ++ ")"
    ++ (if Builtin.catalog.has r.name then "" else " (unknown)")

/-- Shows how rules are read. -/
def parse (w : Words) : Except UsageError Result :=
  match w.plain with
  | [] => .error (.missingArgument "EXPRESSION")
  | [text] => match Rule.readAll text with
    | [] => .ok { lines := ["No rules."] }
    | rules => .ok { lines := rules.map ruleLine }
  | _ :: extra => .error (.extraArguments extra)

/-- Lists the names that rules can use. -/
def validators (w : Words) : Except UsageError Result :=
  match w.plain with
  | [] => .ok { lines := Builtin.catalog.names }
  | extra => .error (.extraArguments extra)

/-- What is told about the commands. -/
def help : Result :=
  { lines := ["check RULES_FILE DATA_FILE [--locale TEXT] [--messages DIRECTORY]",
      "parse EXPRESSION", "validators"] }

/-- Reads the words of a command and runs it, unless help is asked for. -/
def command (specs : List OptionSpec) (words : List String)
    (run : Words → Except Stop Result) : Except Stop Result := do
  let w ← (readWords specs true words).mapError .usage
  if (w.value? helpOption.long).isSome then return help else run w

/-- Runs the command of a name. -/
def dispatch (env : Environment) (folder : Folder) (name : String) (words : List String) :
    Except Stop Result :=
  if name = "check" then command checkOptions words (check env folder)
  else if name = "parse" then command [helpOption] words fun w => (parse w).mapError .usage
  else if name = "validators" then
    command [helpOption] words fun w => (validators w).mapError .usage
  else .error (.usage (.noSuchCommand name))

/-- The options before the name of a command. -/
def globalOptions : List OptionSpec := [{ long := "--verbose", short := some 'v' }, helpOption]

/-- Runs the program on its words, and gives what it comes to unless it ends early. -/
def runWords (env : Environment) (folder : Folder) (words : List String) : Except Stop Result := do
  let w ← (readWords globalOptions false words).mapError .usage
  if (w.value? helpOption.long).isSome then return help
  else match w.plain with
    | [] => .error (.usage .missingCommand)
    | name :: rest => dispatch env folder name rest

/-- Runs the program on its words. Without any it only tells that this is no use. -/
def run (env : Environment) (folder : Folder) (words : List String) : Result :=
  if words.isEmpty then { status := 2 }
  else match runWords env folder words with
    | .ok r => r
    | .error stop => stop.result

end FieldRules.Command
