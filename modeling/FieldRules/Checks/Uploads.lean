import FieldRules.Checks.Convert
import FieldRules.Checks.Form
import FieldRules.Pattern.Escape

/-!
# Uploads

Rules about the files that came with a form: their stated size, their stated media type and the
extension of their name. They look at one upload or at those in a list; a value without uploads has
none that could be wrong.
-/

namespace FieldRules.Checks

open FieldRules.Number FieldRules.Pattern

/-- The uploads of a list. -/
def uploadsOf (vs : List Value) : List Upload :=
  vs.filterMap fun
    | .file f => some f
    | _ => none

/-- The uploads of a value. -/
def uploads : Value → List Upload
  | .file f => [f]
  | .list vs | .tuple vs => uploadsOf vs
  | _ => []

/-- Asks every upload in turn, up to the first that is refused. -/
def allUploads (p : Upload → Except Fault Bool) : List Upload → Except Fault Bool
  | [] => .ok true
  | f :: fs => do if ← p f then allUploads p fs else return false

/-! ## Size -/

/-- A stated size is at most a limit. -/
def sizeAtMost (limit : Float) : FileSize → Except Fault Bool
  | .whole n => .ok (intLeFloat n limit)
  | .real x => .ok (decide (x ≤ limit))
  | .unknown => .error .wrongKind

/-- Every upload has at most the number of kilobytes that is given. -/
def size (value : Value) (params : List Value) : Except Fault Bool := do
  let kilobytes ← toFloat (← param params 0)
  allUploads (fun f => sizeAtMost (kilobytes * 1024) f.size) (uploads value)

/-! ## Media type -/

/-- The media types that are given, as a pattern. A star stands for one or more characters. -/
def mimePattern (params : List Value) : List Char :=
  '^' :: oneOf (params.map fun p => openStars (escape p.asText.toList)) ++ ['$']

/-- The media type of every upload is one of those that are given, whatever the case of its letters. -/
def mimes (value : Value) (params : List Value) : Except Fault Bool := do
  let p ← (readIgnoringCase (mimePattern params)).mapError patternFault
  return (uploads value).all fun f => p.matchesStart f.mimeType.toList

/-! ## Extension -/

/-- The extensions that are given, as a pattern. -/
def extensionPattern (params : List Value) : List Char :=
  '\\' :: '.' :: oneOf (params.map fun p => escape p.asText.toList) ++ ['$']

/-- The name of every upload ends with a point and an extension that is given. -/
def ext (value : Value) (params : List Value) : Except Fault Bool := do
  let p ← (readIgnoringCase (extensionPattern params)).mapError patternFault
  return (uploads value).all fun f => p.search f.name.toList

/-- What the name of an image ends with. -/
def imagePattern : String := "\\.(jpg|svg|jpeg|png|bmp|gif)$"

/-- An upload has the name of an image. -/
def isImageName (f : Upload) : Bool :=
  (readIgnoringCase imagePattern.toList).toOption.any fun p => p.search f.name.toList

/-- Every upload has the name of an image. -/
def image (value : Value) (_params : List Value) : Except Fault Bool :=
  .ok ((uploads value).all isImageName)

end FieldRules.Checks
