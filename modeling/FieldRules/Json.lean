import FieldRules.Fault
import FieldRules.Number.Reading
import FieldRules.Text.Digit
import FieldRules.Text.Surrogates
import FieldRules.Value.Key

/-!
# JSON

The value that a JSON text stands for. Every reader answers with what it read and the text after it.
Besides the usual numbers there are the words `NaN`, `Infinity` and `-Infinity`. A number without a
fraction and without a power of ten is whole. Of the members of an object with the same name the
last counts.
-/

namespace FieldRules.Json

open FieldRules.Text

/-- The text is no JSON. -/
def malformed {α : Type} : Except Fault α := .error .malformedJson

/-- White space between tokens. -/
def isSpace (c : Char) : Bool := c == ' ' || c == '\t' || c == '\n' || c == '\r'

/-- A text without white space at its start. -/
def skipSpace (s : List Char) : List Char := s.dropWhile isSpace

/-! ## Strings -/

/-- The character that a letter stands for after a backslash. -/
def escaped? : Char → Option Char
  | '"' => some '"'
  | '\\' => some '\\'
  | '/' => some '/'
  | 'b' => some '\x08'
  | 'f' => some '\x0c'
  | 'n' => some '\n'
  | 'r' => some '\r'
  | 't' => some '\t'
  | _ => none

/-- The code points of a string after its opening quote. -/
def readPoints : List Char → Except Fault (List Nat × List Char)
  | [] => malformed
  | '"' :: s => .ok ([], s)
  | '\\' :: 'u' :: a :: b :: c :: d :: s =>
    if [a, b, c, d].all isHexDigit then do
      let (points, rest) ← readPoints s
      return (numberIn 16 [a, b, c, d] :: points, rest)
    else malformed
  | '\\' :: c :: s => match escaped? c with
    | none => malformed
    | some e => do
      let (points, rest) ← readPoints s
      return (e.toNat :: points, rest)
  | c :: s =>
    if c.toNat < 0x20 || c = '\\' then malformed
    else do
      let (points, rest) ← readPoints s
      return (c.toNat :: points, rest)

/-- A string after its opening quote. -/
def readString (s : List Char) : Except Fault (String × List Char) := do
  let (points, rest) ← readPoints s
  return (String.ofList (charsOfPoints points), rest)

/-! ## Numbers -/

/-- The digits of a whole number without leading zeros, and the rest. -/
def wholeDigits (s : List Char) : List Char × List Char :=
  match s with
  | '0' :: rest => (['0'], rest)
  | s => (s.takeWhile isAsciiDigit, s.dropWhile isAsciiDigit)

/-- A point and digits, if they come next. -/
def fractionPart (s : List Char) : List Char × List Char :=
  match s with
  | '.' :: rest =>
    let ds := rest.takeWhile isAsciiDigit
    if ds.isEmpty then ([], s) else ('.' :: ds, rest.drop ds.length)
  | s => ([], s)

/-- A power of ten, if it comes next. -/
def powerPart (s : List Char) : List Char × List Char :=
  match s with
  | e :: rest =>
    if e = 'e' || e = 'E' then
      let sign := rest.takeWhile fun c => c == '+' || c == '-'
      let ds := (rest.drop sign.length).takeWhile isAsciiDigit
      if sign.length ≤ 1 && !ds.isEmpty then
        (e :: sign ++ ds, rest.drop (sign.length + ds.length))
      else ([], s)
    else ([], s)
  | [] => ([], [])

/-- A number. -/
def readNumber (s : List Char) : Except Fault (Value × List Char) := do
  let (sign, body) := match s with
    | '-' :: rest => (['-'], rest)
    | s => ([], s)
  let (whole, rest) := wholeDigits body
  if whole.isEmpty then malformed
  else
    let (fraction, rest) := fractionPart rest
    let (power, rest) := powerPart rest
    if fraction.isEmpty && power.isEmpty then
      let n ← (Number.readInt? (sign ++ whole)).elim (.error .notANumber) .ok
      return (.int n, rest)
    else
      let x ← (Number.readFloat? (sign ++ whole ++ fraction ++ power)).elim malformed .ok
      return (.float x, rest)

/-! ## Values -/

/-- The words and what they stand for. -/
def words : List (String × Value) := [
  ("null", .null), ("true", .bool true), ("false", .bool false), ("NaN", .float (0.0 / 0.0)),
  ("Infinity", .float (Number.infinity false)),
  ("-Infinity", .float (Number.infinity true))]

/-- A word or a number. -/
def readAtom (s : List Char) : Except Fault (Value × List Char) :=
  match words.find? fun w => w.1.toList.isPrefixOf s with
  | some w => .ok (w.2, s.drop w.1.length)
  | none => readNumber s

mutual

/-- A value without white space before it. -/
def readValue : (rounds : Nat) → List Char → Except Fault (Value × List Char)
  | 0, _ => malformed
  | rounds + 1, s =>
    match s with
    | '"' :: s => (readString s).map fun (t, rest) => (.text t, rest)
    | '[' :: s => match skipSpace s with
      | ']' :: rest => .ok (.list [], rest)
      | s => (readItems rounds s).map fun (vs, rest) => (.list vs, rest)
    | '{' :: s => match skipSpace s with
      | '}' :: rest => .ok (.dict [], rest)
      | s => (readMembers rounds s).map fun (es, rest) => (Value.dictOf es, rest)
    | s => readAtom s

/-- The items of an array up to its closing bracket. -/
def readItems : (rounds : Nat) → List Char → Except Fault (List Value × List Char)
  | 0, _ => malformed
  | rounds + 1, s => do
    let (v, rest) ← readValue rounds s
    match skipSpace rest with
    | ',' :: rest =>
      let (vs, rest) ← readItems rounds (skipSpace rest)
      return (v :: vs, rest)
    | ']' :: rest => return ([v], rest)
    | _ => malformed

/-- The members of an object up to its closing brace. -/
def readMembers : (rounds : Nat) → List Char → Except Fault (List (Value × Value) × List Char)
  | 0, _ => malformed
  | rounds + 1, s =>
    match s with
    | '"' :: s => do
      let (name, rest) ← readString s
      match skipSpace rest with
      | ':' :: rest => do
        let (v, rest) ← readValue rounds (skipSpace rest)
        match skipSpace rest with
        | ',' :: rest => do
          let (es, rest) ← readMembers rounds (skipSpace rest)
          return ((.text name, v) :: es, rest)
        | '}' :: rest => return ([(.text name, v)], rest)
        | _ => malformed
      | _ => malformed
    | _ => malformed

end

/-- The value that a text stands for. -/
def read (text : List Char) : Except Fault Value := do
  let (v, rest) ← readValue (2 * text.length + 2) (skipSpace text)
  if (skipSpace rest).isEmpty then return v else malformed

end FieldRules.Json
