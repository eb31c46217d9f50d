import FieldRules.Text.Quoted

/-!
# Arguments of a command

The words after a command's name: options, some of which take a value, and plain words. A value
stands in the next word or after an equality sign. Two hyphens alone end the options.
-/

namespace FieldRules.Command

/-- What is wrong with the words of a command. -/
inductive UsageError where
  | noSuchOption (name : String)
  | noSuchCommand (name : String)
  | missingCommand
  | missingArgument (name : String)
  | missingValue (option : String)
  | needlessValue (option : String)
  | extraArguments (words : List String)
  /-- Nothing stands at the path that was given for a parameter. -/
  | notThere (param : String) (isFile : Bool) (path : String)
  /-- A directory stands where a file is needed, or a file where a directory is. -/
  | otherKind (param : String) (isFile : Bool) (path : String)
  /-- A file holds no mapping. -/
  | notMapping (path : String)
deriving Repr, DecidableEq

namespace UsageError

/-- The word for what is needed at a path. -/
def pathKind (isFile : Bool) : String := if isFile then "File" else "Directory"

/-- The text of a usage error. -/
def message : UsageError → String
  | noSuchOption name => "No such option " ++ Text.quoted name ++ "."
  | noSuchCommand name => "No such command " ++ Text.quoted name ++ "."
  | missingCommand => "Missing command."
  | missingArgument name => "Missing argument '" ++ name ++ "'."
  | missingValue option => "Option " ++ Text.quoted option ++ " requires an argument."
  | needlessValue option => "Option " ++ Text.quoted option ++ " does not take a value."
  | extraArguments words =>
    "Got unexpected extra argument" ++ (if words.length = 1 then "" else "s") ++ " ("
      ++ String.intercalate " " words ++ ")"
  | notThere param isFile path =>
    "Invalid value for '" ++ param ++ "': " ++ pathKind isFile ++ " " ++ Text.quoted path
      ++ " does not exist."
  | otherKind param isFile path =>
    "Invalid value for '" ++ param ++ "': " ++ pathKind isFile ++ " " ++ Text.quoted path
      ++ (if isFile then " is a directory." else " is a file.")
  | notMapping path => "Invalid value for " ++ path ++ ": " ++ path ++ " must contain a mapping"

end UsageError

/-- An option that a command knows. -/
structure OptionSpec where
  long : String
  short : Option Char := none
  takesValue : Bool := false
deriving Repr, DecidableEq

/-- The option that every command knows. -/
def helpOption : OptionSpec := { long := "--help" }

/-- Options with their values in order, and the other words. -/
structure Words where
  options : List (String × String) := []
  plain : List String := []
deriving Repr, DecidableEq

/-- Adds an option before the others. -/
def Words.withOption (w : Words) (name value : String) : Words :=
  { w with options := (name, value) :: w.options }

/-- The last value that an option was given. -/
def Words.value? (w : Words) (name : String) : Option String :=
  (w.options.reverse.find? fun o => o.1 == name).map (·.2)

/-- An option by its long name. -/
def longOption? (specs : List OptionSpec) (name : String) : Option OptionSpec :=
  specs.find? fun s => s.long == name

/-- The options of a cluster of letters, none of which takes a value. -/
def readLetters (specs : List OptionSpec) : List Char → Except UsageError (List String)
  | [] => .ok []
  | c :: cs => match specs.find? fun s => s.short == some c with
    | none => .error (.noSuchOption (String.ofList ['-', c]))
    | some s => return s.long :: (← readLetters specs cs)

/-- A word and what stands after its first equality sign. -/
def splitValue (word : List Char) : String × Option String :=
  let name := String.ofList (word.takeWhile (· != '='))
  match word.dropWhile (· != '=') with
  | [] => (name, none)
  | _ :: value => (name, some (String.ofList value))

/-- A word is an option. -/
def isOption (word : List Char) : Bool := word.head? == some '-' && 2 ≤ word.length

/-- Reads the words of a command. Options may stand among the other words, or else only before
them. -/
def readWords (specs : List OptionSpec) (among : Bool) : List String → Except UsageError Words
  | [] => .ok {}
  | word :: rest =>
    let chars := word.toList
    if word = "--" then .ok { plain := rest }
    else if isOption chars then
      let (name, value) := splitValue chars
      match longOption? specs name with
      | some s =>
        match value with
        | some v =>
          if s.takesValue then return (← readWords specs among rest).withOption name v
          else .error (.needlessValue name)
        | none =>
          if s.takesValue then
            match rest with
            | [] => .error (.missingValue name)
            | v :: more => return (← readWords specs among more).withOption name v
          else return (← readWords specs among rest).withOption name ""
      | none =>
        if chars.take 2 = ['-', '-'] then .error (.noSuchOption name)
        else do
          let names ← readLetters specs chars.tail
          let words ← readWords specs among rest
          return names.foldr (fun n w => w.withOption n "") words
    else if among then do
      let words ← readWords specs among rest
      return { words with plain := word :: words.plain }
    else .ok { plain := word :: rest }

end FieldRules.Command
