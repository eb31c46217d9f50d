import FieldRules.Calendar
import FieldRules.Number.Shortest
import FieldRules.Text.Quoted

/-!
# Values

The values that are judged by rules and handed to messages. They come from data files, from forms
and from callers, so their kind is only known when they are looked at. Besides the usual data
there are the files that were uploaded with a form.

Every value has a `text`, which is what rules about characters look at and what messages show, and
a `literal`, which is how it is written inside a list or another collection. As numbers of any length
are read, so every whole number is written, whatever its length.
-/

namespace FieldRules

/-- The bytes of a file. -/
abbrev Bytes := List UInt8

/-- The stated size of an upload: a number of bytes, or something that is no number. -/
inductive FileSize where
  | whole (n : Int)
  | real (x : Float)
  | unknown
deriving Repr, BEq, Inhabited

/-- What is stored for an upload. -/
inductive Stored where
  /-- Nothing was stored. -/
  | nowhere
  /-- The upload names a place where there is no file. -/
  | missing
  /-- The stored bytes. -/
  | holds (bytes : Bytes)
deriving Repr, DecidableEq, Inhabited

/-- A file that came with a form. -/
structure Upload where
  /-- The name that the sender gave, with its extension. -/
  name : String
  /-- The stated media type. -/
  mimeType : String := ""
  size : FileSize := .whole 0
  stored : Stored := .nowhere
  /-- The bytes, if the file is held in memory. -/
  content : Option Bytes := none
deriving Repr, BEq, Inhabited

/-- A value of any kind. -/
inductive Value where
  | null
  | bool (b : Bool)
  | int (n : Int)
  | float (x : Float)
  | text (s : String)
  | bytes (bs : Bytes)
  | list (vs : List Value)
  | tuple (vs : List Value)
  | set (vs : List Value)
  | frozenset (vs : List Value)
  | dict (entries : List (Value × Value))
  | date (d : Date)
  | moment (m : Moment)
  | file (f : Upload)
deriving Repr, BEq, Inhabited

namespace Value

/-! ## Text -/

/-- The stated size inside the text of an upload. -/
def sizeLiteral : FileSize → String
  | .whole n => toString n
  | .real x => Number.floatText x
  | .unknown => "None"

/-- The text of an upload lists its parts. -/
def uploadText (f : Upload) : String :=
  let path := match f.stored with
    | .nowhere => "None"
    | .missing | .holds _ => "PosixPath(" ++ Text.quoted f.name ++ ")"
  let content := match f.content with
    | none => "None"
    | some bs => Text.quotedBytes bs
  "UploadedFile(name=" ++ Text.quoted f.name ++ ", mime_type=" ++ Text.quoted f.mimeType
    ++ ", size=" ++ sizeLiteral f.size ++ ", path=" ++ path ++ ", content=" ++ content ++ ")"

mutual

/-- How a value is written inside a collection. -/
def literal : Value → String
  | null => "None"
  | bool b => if b then "True" else "False"
  | int n => toString n
  | float x => Number.floatText x
  | text s => Text.quoted s
  | bytes bs => Text.quotedBytes bs
  | list vs => "[" ++ String.intercalate ", " (literals vs) ++ "]"
  | tuple vs => match literals vs with
    | [one] => "(" ++ one ++ ",)"
    | all => "(" ++ String.intercalate ", " all ++ ")"
  | set vs => match literals vs with
    | [] => "set()"
    | all => "\x7b" ++ String.intercalate ", " all ++ "\x7d"
  | frozenset vs => match literals vs with
    | [] => "frozenset()"
    | all => "frozenset(\x7b" ++ String.intercalate ", " all ++ "\x7d)"
  | dict es => "\x7b" ++ String.intercalate ", " (entryLiterals es) ++ "\x7d"
  | date d => d.literal
  | moment m => m.literal
  | file f => uploadText f

/-- The literals of the members of a collection. -/
def literals : List Value → List String
  | [] => []
  | v :: vs => v.literal :: literals vs

/-- The literals of the entries of a dictionary. -/
def entryLiterals : List (Value × Value) → List String
  | [] => []
  | (k, v) :: es => (k.literal ++ ": " ++ v.literal) :: entryLiterals es

end

/-- The text of a value: a text is its own, everything else is written as in a collection, dates
and moments in their plain form. -/
def asText : Value → String
  | text s => s
  | date d => d.text
  | moment m => m.text
  | v => v.literal

/-- The text that rules about characters look at: that of no value is empty. -/
def fieldText : Value → String
  | null => ""
  | v => v.asText

/-! ## Kind, truth and members -/

/-- The name of a value's kind, as messages for programmers give it. -/
def kindName : Value → String
  | null => "NoneType"
  | bool _ => "bool"
  | int _ => "int"
  | float _ => "float"
  | text _ => "str"
  | bytes _ => "bytes"
  | list _ => "list"
  | tuple _ => "tuple"
  | set _ => "set"
  | frozenset _ => "frozenset"
  | dict _ => "dict"
  | date _ => "date"
  | moment _ => "datetime"
  | file _ => "UploadedFile"

/-- The truth of a value: zero, nothing and what is empty are false, everything else is true. -/
def truthy : Value → Bool
  | null => false
  | bool b => b
  | int n => n != 0
  | float x => !(x == 0)
  | text s => !s.isEmpty
  | bytes bs => !bs.isEmpty
  | list vs | tuple vs | set vs | frozenset vs => !vs.isEmpty
  | dict es => !es.isEmpty
  | date _ | moment _ | file _ => true

/-- The members of a value that can be gone through: the characters of a text, the keys of a
dictionary. -/
def members? : Value → Option (List Value)
  | text s => some (s.toList.map fun c => text (String.singleton c))
  | bytes bs => some (bs.map fun b => int b.toNat)
  | list vs | tuple vs | set vs | frozenset vs => some vs
  | dict es => some (es.map (·.1))
  | null | bool _ | int _ | float _ | date _ | moment _ | file _ => none

end Value

end FieldRules
