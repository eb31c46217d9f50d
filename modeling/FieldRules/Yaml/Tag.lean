import FieldRules.Calendar
import FieldRules.Table
import FieldRules.Text.Digit

/-!
# Tags

The tag of a node tells what kind of value it stands for. A plain scalar without a tag gets its tag
from its text: the words for nothing, true and false, numbers in their several forms, dates and
moments; any other text is a text.
-/

namespace FieldRules.Yaml

open FieldRules.Text

/-- What kind of value a node stands for. -/
inductive Tag where
  | null
  | bool
  | int
  | float
  | binary
  | timestamp
  | str
  | seq
  | map
  | set
  /-- Pairs of which the first members are keys. -/
  | omap
  | pairs
  /-- The key whose value is a mapping, or are mappings, to be merged in. -/
  | merge
  /-- The key for the value of a mapping as a scalar. -/
  | value
  /-- A kind that is not known. -/
  | other (name : String)
deriving Repr, DecidableEq, Inhabited

namespace Tag

/-- The start of the tags that are known. -/
def knownStart : String := "tag:yaml.org,2002:"

/-- The known tags by their names. -/
def known : Table String Tag := [
  ("null", .null), ("bool", .bool), ("int", .int), ("float", .float), ("binary", .binary),
  ("timestamp", .timestamp), ("str", .str), ("seq", .seq), ("map", .map), ("set", .set),
  ("omap", .omap), ("pairs", .pairs), ("merge", .merge), ("value", .value)]

/-- The tag that a text writes in full. -/
def ofText (s : String) : Tag :=
  match known.find? fun e => knownStart ++ e.1 == s with
  | some e => e.2
  | none => .other s

end Tag

/-! ## Plain scalars -/

/-- The words for true. -/
def trueWords : List String := ["yes", "true", "on"]

/-- The words for false. -/
def falseWords : List String := ["no", "false", "off"]

/-- A word in lower case, in upper case or with a capital. -/
def spellings (word : String) : List String := [word, word.capitalize, word.toUpper]

/-- A digit or a low line. -/
def isSpacedDigit (c : Char) : Bool := isAsciiDigit c || c == '_'

/-- A text without its sign. -/
def unsigned : List Char → List Char
  | '+' :: s => s
  | '-' :: s => s
  | s => s

/-- One or two digits below sixty after a colon, any number of times but at least once, up to the
rest that is given to `stop`. -/
def isSexagesimal (stop : List Char → Bool) : (again : Bool) → List Char → Bool
  | again, ':' :: c :: d :: s =>
    if isAsciiDigit d && c ≤ '5' && '0' ≤ c then isSexagesimal stop true s
    else if isAsciiDigit c then isSexagesimal stop true (d :: s)
    else again && stop (':' :: c :: d :: s)
  | again, [':', c] => if isAsciiDigit c then stop [] else again && stop [':', c]
  | again, s => again && stop s

/-- A whole number: binary, octal, decimal, hexadecimal or in base sixty. -/
def isInt (s : List Char) : Bool :=
  match unsigned s with
  | ['0'] => true
  | '0' :: 'b' :: ds => !ds.isEmpty && ds.all fun c => c == '0' || c == '1' || c == '_'
  | '0' :: 'x' :: ds => !ds.isEmpty && ds.all fun c => isHexDigit c || c == '_'
  | '0' :: ds => ds.all fun c => isOctalDigit c || c == '_'
  | c :: ds =>
    isAsciiDigit c
      && (ds.all isSpacedDigit || isSexagesimal List.isEmpty false (ds.dropWhile isSpacedDigit))
  | [] => false

/-- A power of ten with its sign, or nothing. -/
def isPower : List Char → Bool
  | [] => true
  | e :: sign :: d :: ds =>
    (e == 'e' || e == 'E') && (sign == '+' || sign == '-') && (d :: ds).all isAsciiDigit
  | _ => false

/-- A point, digits and perhaps a power of ten. -/
def isFraction : List Char → Bool
  | '.' :: s => isPower (s.dropWhile isSpacedDigit)
  | _ => false

/-- A point and digits up to the end. -/
def isPlainFraction : List Char → Bool
  | '.' :: s => s.all isSpacedDigit
  | _ => false

/-- A number with a point, in base ten or sixty, or a word for infinity or not-a-number. -/
def isFloat (s : List Char) : Bool :=
  let isWord (words : List String) (t : List Char) : Bool := words.contains (String.ofList t)
  isWord [".nan", ".NaN", ".NAN"] s || isWord [".inf", ".Inf", ".INF"] (unsigned s)
    || match s, unsigned s with
      | '.' :: d :: _, _ => isAsciiDigit d && isFraction s
      | _, d :: ds =>
        let rest := ds.dropWhile isSpacedDigit
        isAsciiDigit d && (isFraction rest || isSexagesimal isPlainFraction false rest)
      | _, [] => false

/-! ## Dates and moments -/

/-- The parts of a written date or moment. -/
structure Stamp where
  year : Nat
  month : Nat
  day : Nat
  /-- Month and day are written with two digits. -/
  wide : Bool
  /-- Hour, minute, second and the digits of its fraction. -/
  clock : Option (Nat × Nat × Nat × List Char) := none
  /-- The sign, hours and minutes of the distance from universal time; none for universal time. -/
  zone : Option (Option (Bool × Nat × Nat)) := none
deriving Repr

/-- Takes between one and `most` digits. -/
def takeDigits? (most : Nat) (s : List Char) : Option (List Char × List Char) :=
  let ds := (s.take most).takeWhile isAsciiDigit
  if ds.isEmpty then none else some (ds, s.drop ds.length)

/-- Takes exactly `n` digits. -/
def takeNumber? (n : Nat) (s : List Char) : Option (Nat × List Char) := do
  let (ds, rest) ← takeDigits? n s
  if ds.length = n then some (numberIn 10 ds, rest) else none

/-- Takes a character. -/
def takeSign? (c : Char) : List Char → Option (List Char)
  | d :: s => if c = d then some s else none
  | [] => none

/-- The distance from universal time at the end of a moment. -/
def readZone? (s : List Char) : Option (Option (Option (Bool × Nat × Nat))) :=
  match s.dropWhile (fun c => c == ' ' || c == '\t') with
  | [] => if s.isEmpty then some none else none
  | ['Z'] => some (some none)
  | sign :: rest =>
    if sign = '+' || sign = '-' then do
      let (hours, rest) ← takeDigits? 2 rest
      let hours := numberIn 10 hours
      if rest.isEmpty then some (some (some (sign == '-', hours, 0)))
      else do
        let (minutes, rest) ← takeNumber? 2 (← takeSign? ':' rest)
        if rest.isEmpty then some (some (some (sign == '-', hours, minutes))) else none
    else none

/-- The time of day after a date. -/
def readClock? (s : Stamp) (text : List Char) : Option Stamp := do
  let (hour, rest) ← takeDigits? 2 text
  let (minute, rest) ← takeNumber? 2 (← takeSign? ':' rest)
  let (second, rest) ← takeNumber? 2 (← takeSign? ':' rest)
  let (fraction, rest) := match rest with
    | '.' :: rest => (rest.takeWhile isAsciiDigit, rest.dropWhile isAsciiDigit)
    | rest => ([], rest)
  let zone ← readZone? rest
  return { s with clock := some (numberIn 10 hour, minute, second, fraction), zone }

/-- Reads a date, or a date and a time of day after a letter or white space. -/
def readStamp? (text : List Char) : Option Stamp := do
  let (year, rest) ← takeNumber? 4 text
  let (month, rest) ← takeDigits? 2 (← takeSign? '-' rest)
  let (day, rest) ← takeDigits? 2 (← takeSign? '-' rest)
  let stamp : Stamp :=
    { year
      month := numberIn 10 month
      day := numberIn 10 day
      wide := month.length = 2 && day.length = 2 }
  match rest with
  | [] => return stamp
  | c :: more =>
    if c = 'T' || c = 't' then readClock? stamp more
    else if c = ' ' || c = '\t' then
      readClock? stamp (more.dropWhile fun c => c == ' ' || c == '\t')
    else none

/-- A plain text is a date or a moment. A date alone has two digits for month and day. -/
def isTimestamp (s : List Char) : Bool :=
  match readStamp? s with
  | some stamp => stamp.clock.isSome || stamp.wide
  | none => false

/-- The tag that a plain scalar gets from its text. -/
def Tag.ofPlain (text : String) : Tag :=
  let s := text.toList
  if ((trueWords ++ falseWords).flatMap spellings).contains text then .bool
  else if isFloat s then .float
  else if isInt s then .int
  else if text = "<<" then .merge
  else if text = "~" || text = "" || (spellings "null").contains text then .null
  else if isTimestamp s then .timestamp
  else if text = "=" then .value
  else .str

end FieldRules.Yaml
