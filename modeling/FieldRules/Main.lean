import FieldRules.Command.Run
import FieldRules.Yaml.Reader

/-!
# The program

Takes a picture of the environment and of the files that the words of the command name, and runs
the command on it.
-/

namespace FieldRules.Program

/-- The settings that the program looks at. -/
def settingNames : List String := ["RULEFORGE_LOCALE", "RULEFORGE_LOCALE_DIR"]

/-- The settings of the environment. -/
def readEnvironment : IO Environment :=
  settingNames.filterMapM fun name => do
    return (← IO.getEnv name).map fun value => (name, value)

/-- The bytes of a file. -/
def readBytes (path : String) : IO Bytes := return (← IO.FS.readBinFile path).toList

/-- Puts what stands at a path into a folder: a file, or a directory with its files. -/
def addPath (folder : Folder) (text : String) : IO Folder := do
  let here := (← IO.currentDir) / text
  let path := Path.ofText text
  if ← here.isDir then
    let mut folder := folder.put path .directory
    for entry in ← here.readDir do
      let inside := path.entry entry.fileName
      if ← entry.path.isDir then folder := folder.put inside .directory
      else folder := folder.put inside (.file (← readBytes entry.path.toString))
    return folder
  else if ← here.pathExists then
    return folder.put path (.file (← readBytes here.toString))
  else return folder

/-- Writes the answer of a command and gives its status. -/
def finish (r : Command.Result) : IO UInt32 := do
  for line in r.lines do IO.println line
  if let some text := r.error then IO.eprintln ("Error: " ++ text)
  if let some fault := r.fault then IO.eprintln (fault.message?.getD "The command failed.")
  return UInt32.ofNat r.status

end FieldRules.Program

open FieldRules in
/-- Runs the program on the words of its call. -/
def main (words : List String) : IO UInt32 := do
  let env ← Program.readEnvironment
  let given := words.filterMap fun w => (Command.splitValue w.toList).2
  let named := words ++ given ++ env.map (·.2)
  let folder ← named.foldlM Program.addPath { yaml := Yaml.reader }
  Program.finish (Command.run env folder words)
