import FieldRules.Checks.Uploads
import FieldRules.Validator

/-!
# The size of images

`dimensions` asks that every upload is an image of a given width and height. The sizes are asked of
a probe, so the answer is put off. Nothing is asked unless every upload has the name of an image.
-/

namespace FieldRules.Checks

open FieldRules.Number

/-- A value is equal to a whole number. -/
def isNumber (n : Int) : Value → Bool
  | .int m => m == n
  | .bool b => (if b then 1 else 0) == n
  | .float x => intEqFloat n x
  | _ => false

/-- The members of a measured size are a width and a height. -/
def isSize (width height : Int) (size : Value) : Except Fault Bool :=
  match size.members? with
  | none => .error .wrongKind
  | some [w, h] => .ok (isNumber width w && isNumber height h)
  | some _ => .ok false

/-- Every measured size is the one that is asked for, up to the first that is not. -/
def allSizes (width height : Int) : List Value → Except Fault Bool
  | [] => .ok true
  | s :: ss => do if ← isSize width height s then allSizes width height ss else return false

/-- The results of a list of attempts, or the fault of the first that failed. -/
def firstFault : List (Except Fault Value) → Except Fault (List Value)
  | [] => .ok []
  | r :: rs => do
    let v ← r
    let vs ← firstFault rs
    return v :: vs

/-- Measures the uploads and compares their sizes. -/
def measure (files : List Upload) (width height : Int) (probe : Probe) :
    Noted (Except Fault Bool) :=
  let sizes := files.map probe
  ⟨do allSizes width height (← firstFault (sizes.map (·.result))), sizes.flatMap (·.notes)⟩

/-- The width and height that are asked for. -/
def wantedSize (params : List Value) : Except Fault (Int × Int) := do
  let width ← toInt (← param params 0)
  let height ← toInt (← param params 1)
  return (width, height)

/-- Every upload is an image of the size that is asked for. -/
def haveDimensions (value : Value) (params : List Value) (probe : Probe) :
    Noted (Except Fault Bool) :=
  match wantedSize params with
  | .error f => ⟨.error f, []⟩
  | .ok (width, height) =>
    let files := uploads value
    if files.all isImageName then measure files width height probe else ⟨.ok false, []⟩

/-- The validator that asks for the size of images. -/
def dimensions : Validator := fun value params =>
  let run : Probe → Noted (Except Fault Value) := fun probe =>
    let r := haveDimensions value params probe
    ⟨r.result.map .bool, r.notes⟩
  ⟨.later (.task run), []⟩

end FieldRules.Checks
