import FieldRules.Fault
import FieldRules.Number.Reading
import FieldRules.Value

/-!
# Message templates

A template is a text with places to fill in:

    The {field} must be at least {0} characters.

`{field}` stands for the name of the field, a number in braces for a parameter of the rule, counted
from zero; its digits may be those of any script. A number that no parameter has leaves nothing.
All other braces stand for themselves, and what is filled in is not looked at again.
-/

namespace FieldRules

open FieldRules.Text

namespace Template

/-- A piece of a template. -/
inductive Piece where
  /-- A character that stands for itself. -/
  | char (c : Char)
  /-- The place of the field's name. -/
  | field
  /-- The place of a parameter, with the digits of its number. -/
  | param (digits : List Char)
deriving Repr, DecidableEq

/-- The place that a text after an opening brace starts with, and the text after its closing
brace. -/
def place? (s : List Char) : Option (Piece × List Char) :=
  let digits := s.takeWhile isDecimal
  if "field\x7d".toList.isPrefixOf s then some (.field, s.drop 6)
  else if digits.isEmpty then none
  else match s.dropWhile isDecimal with
    | '}' :: rest => some (.param digits, rest)
    | _ => none

theorem length_dropWhile_le {α : Type} (p : α → Bool) (s : List α) :
    (s.dropWhile p).length ≤ s.length := (List.dropWhile_suffix p).length_le

/-- A place takes characters off the text. -/
theorem place?_length {s rest : List Char} {p : Piece} (h : place? s = some (p, rest)) :
    rest.length ≤ s.length := by
  unfold place? at h
  simp only at h
  split at h
  · simp only [Option.some.injEq, Prod.mk.injEq] at h
    simp [← h.2]
  · split at h
    · simp at h
    · split at h
      · rename_i r hr
        simp only [Option.some.injEq, Prod.mk.injEq] at h
        have := length_dropWhile_le isDecimal s
        rw [hr, List.length_cons] at this
        rw [← h.2]
        omega
      · simp at h

/-- Cuts a template into its pieces, from left to right. -/
def pieces : List Char → List Piece
  | [] => []
  | c :: s =>
    if c = '{' then
      match h : place? s with
      | some (p, rest) =>
        have := place?_length h
        p :: pieces rest
      | none => .char c :: pieces s
    else .char c :: pieces s
termination_by s => s.length

/-- The number that digits of any script write; none when there are more of them than a limit allows. -/
def paramNumber? (limit : Option Nat) (digits : List Char) : Option Nat :=
  if limit.any (· < digits.length) then none
  else some (Number.digitsValue (Number.asciiDigits digits))

/-- What a piece leaves when it is filled in. -/
def fill (limit : Option Nat) (field : String) (params : List Value) :
    Piece → Except Fault (List Char)
  | .char c => .ok [c]
  | .field => .ok field.toList
  | .param digits => match paramNumber? limit digits with
    | none => .error .notANumber
    | some n => .ok ((params[n]?.map fun v => v.asText.toList).getD [])

/-- Fills pieces in, one after the other. -/
def fillAll (limit : Option Nat) (field : String) (params : List Value) :
    List Piece → Except Fault (List Char)
  | [] => .ok []
  | p :: ps => do
    let here ← fill limit field params p
    let rest ← fillAll limit field params ps
    return here ++ rest

/-- Fills a template in, with a limit on the digits of a number, as an interpreter may set one, or
without. -/
def render (limit : Option Nat) (template field : String) (params : List Value) :
    Except Fault String :=
  (fillAll limit field params (pieces template.toList)).map String.ofList

end Template

/-- Fills a template in with the name of a field and the parameters of a rule. Numbers are read whatever
their length. -/
def renderTemplate (template field : String) (params : List Value) : Except Fault String :=
  Template.render none template field params

end FieldRules
