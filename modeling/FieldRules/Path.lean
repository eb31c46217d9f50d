import FieldRules.Table

/-!
# Paths

A path is a list of names; empty names and single points between them do not count.
-/

namespace FieldRules

/-- Where a path starts. -/
inductive PathStart where
  /-- Where the program is. -/
  | here
  /-- The root of all files, written as one slash or as more than two. -/
  | root
  /-- The place that two slashes stand for, which may be another one. -/
  | special
deriving Repr, DecidableEq, Inhabited

/-- A place in a tree of files. -/
structure Path where
  start : PathStart := .here
  names : List String := []
deriving Repr, DecidableEq, Inhabited

/-- The start of a path by the number of slashes before its first name. -/
def PathStart.ofSlashes : Nat → PathStart
  | 0 => .here
  | 2 => .special
  | _ => .root

/-- The slashes of a start. -/
def PathStart.text : PathStart → String
  | .here => ""
  | .root => "/"
  | .special => "//"

namespace Path

/-- The path that a text writes. -/
def ofText (s : String) : Path :=
  let cs := s.toList
  let names := (cs.splitOn '/').filter fun n => n ≠ [] && n ≠ ['.']
  { start := PathStart.ofSlashes (cs.takeWhile (· == '/')).length
    names := names.map String.ofList }

/-- A path as a text; where the program is is written as a point. -/
def toText (p : Path) : String :=
  let text := p.start.text ++ String.intercalate "/" p.names
  if text.isEmpty then "." else text

/-- The path of an entry of a directory. -/
def entry (p : Path) (name : String) : Path := { p with names := p.names ++ [name] }

/-- The last name. -/
def name (p : Path) : List Char := (p.names.getLast?.getD "").toList

/-- The last name cut before its last point, if that is neither its first nor its last character. -/
def cutName (p : Path) : List Char × List Char :=
  let back := p.name.reverse
  let extension := back.takeWhile (· != '.')
  match back.dropWhile (· != '.') with
  | _ :: (_ :: _) =>
    let n := back.length - extension.length - 1
    if extension.isEmpty then (p.name, []) else (p.name.take n, p.name.drop n)
  | _ => (p.name, [])

/-- The last name without its extension. -/
def stem (p : Path) : String := String.ofList p.cutName.1

/-- The extension of the last name, with its point. -/
def suffix (p : Path) : String := String.ofList p.cutName.2

end Path

end FieldRules
