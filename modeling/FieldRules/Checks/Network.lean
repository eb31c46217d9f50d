import FieldRules.Fault
import FieldRules.Text.Digit
import FieldRules.Value

/-!
# Network addresses

The written forms of network addresses: four decimal numbers with points, or eight hexadecimal
groups with colons, of which one run of zero groups may be left out. The last two groups may be
written as four decimal numbers. A percent sign may add the name of a zone.
-/

namespace FieldRules.Checks

open FieldRules.Text

/-- A decimal number up to 255 without a leading zero. -/
def isOctet (s : List Char) : Bool :=
  !s.isEmpty && s.length ≤ 3 && s.all isAsciiDigit
    && (s == ['0'] || s.head? != some '0')
    && s.foldl (fun n c => 10 * n + (c.toNat - '0'.toNat)) 0 ≤ 255

/-- Four octets with points between. -/
def isFourOctets (s : List Char) : Bool :=
  let parts := s.splitOn '.'
  parts.length == 4 && parts.all isOctet

/-- One to four hexadecimal digits. -/
def isHexGroup (s : List Char) : Bool := !s.isEmpty && s.length ≤ 4 && s.all isHexDigit

/-- Groups that are all written out: eight of them. -/
def isFullGroups (parts : List (List Char)) : Bool :=
  parts.length == 8 && parts.all isHexGroup

/-- The parts before a gap: hexadecimal groups, or one empty part when the gap comes first. -/
def groupsBeside? (parts : List (List Char)) : Option Nat :=
  if parts == [[]] then some 0
  else if parts.all isHexGroup then some parts.length
  else none

/-- Groups with one gap, which stands for at least one group; the gap is the only empty part that
is neither first nor last. -/
def isGappedGroups (parts : List (List Char)) : Bool :=
  let inner := parts.tail.dropLast
  match inner.findIdx? List.isEmpty with
  | none => false
  | some i =>
    match groupsBeside? (parts.take (i + 1)), groupsBeside? (parts.drop (i + 2)) with
    | some before, some after => before + after ≤ 7
    | _, _ => false

/-- The parts of an address, the last of which may be four octets and then counts as two groups;
none when something with a point is not four octets. -/
def groupParts? (s : List Char) : Option (List (List Char)) :=
  let parts := s.splitOn ':'
  match parts.getLast? with
  | none => none
  | some last =>
    if last.contains '.' then
      if isFourOctets last then some (parts.dropLast ++ [['0'], ['0']]) else none
    else some parts

/-- Hexadecimal groups with colons between. -/
def isGroups (s : List Char) : Bool :=
  3 ≤ (s.splitOn ':').length
    && (groupParts? s).any fun parts => isFullGroups parts || isGappedGroups parts

/-- Groups, and after a percent sign the name of a zone. -/
def isZonedGroups (s : List Char) : Bool :=
  match s.dropWhile (· != '%') with
  | [] => isGroups s
  | _ :: zone => isGroups (s.takeWhile (· != '%')) && !zone.isEmpty && !zone.contains '%'

/-- A network address of either form. -/
def isNetworkAddress (s : List Char) : Bool :=
  !s.contains '/' && (isFourOctets s || isZonedGroups s)

/-- The text of a value is a network address. -/
def ip (value : Value) (_params : List Value) : Except Fault Bool :=
  .ok (isNetworkAddress value.fieldText.toList)

end FieldRules.Checks
