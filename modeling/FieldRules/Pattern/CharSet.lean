import FieldRules.Pattern.Basic
import FieldRules.Text.Blank
import FieldRules.Text.Case
import FieldRules.Text.Digit
import FieldRules.Text.Numeric

/-!
# Characters of a pattern

Whether a character is the one that a pattern names, or is in one of its sets, under the options
that are on.

When case is ignored a character stands for all that are the same letter. A set is then compared by
lower-case forms, but only if it names a letter at all.
-/

namespace FieldRules.Pattern

open FieldRules.Text

/-- The lower-case form that counts under the options. -/
def lowerUnder (f : Flags) (n : Nat) : Nat :=
  if f.ascii then (if 65 ≤ n ∧ n ≤ 90 then n + 32 else n) else lowerPoint n

/-- A code point that has another case under the options. -/
def isCasedUnder (f : Flags) (n : Nat) : Bool :=
  if f.ascii then (65 ≤ n && n ≤ 90) || (97 ≤ n && n ≤ 122) else isCased n

/-- The lower-case forms of the same letter. -/
def twinsUnder (f : Flags) (n : Nat) : List Nat := if f.ascii then [] else caseTwins n

/-- A character is the one that is named. -/
def matchesPoint (f : Flags) (n : Nat) (c : Char) : Bool :=
  if f.ignoreCase && isCasedUnder f n then
    let l := lowerUnder f n
    let m := lowerUnder f c.toNat
    l == m || (twinsUnder f l).contains m
  else c.toNat == n

/-- A code point is the character of some text. -/
def charOf (n : Nat) : Char := Char.ofNat n

/-- A code point belongs to a named class. -/
def inKind (f : Flags) (k : CharKind) (n : Nat) : Bool :=
  let c := charOf n
  match k with
  | .digit => if f.ascii then isAsciiDigit c else isDecimal c
  | .space => if f.ascii then isAsciiBlank c else isBlank c
  | .word =>
    if f.ascii then c.val < 128 && (c.isAlphanum || c == '_') else isWordChar c

/-- A run of case mappings has a code point between two others. -/
def meets (first last : Nat) (r : CaseRun) : Bool :=
  let from_ := Nat.max first r.first
  let upTo := Nat.min last r.last
  if upTo < from_ then false
  else
    let next := from_ + (r.step - (from_ - r.first) % r.step) % r.step
    next ≤ upTo

/-- Some code point of a range has another case. -/
def rangeIsCased (f : Flags) (first last : Nat) : Bool :=
  let asciiPart := (first ≤ 90 && 65 ≤ last) || (first ≤ 122 && 97 ≤ last)
  if f.ascii then asciiPart
  else asciiPart || lowerRuns.any (meets first last) || upperRuns.any (meets first last)

/-- A member of a set names a letter. Members beyond the basic plane always count as such. -/
def itemIsCased (f : Flags) : SetItem → Bool
  | .point n => 0xFFFF < n || isCasedUnder f n
  | .range first last => 0xFFFF < last || rangeIsCased f first last
  | .kind _ _ => false

/-- The code points whose lower-case form is the given one. -/
def lowerOrigins (f : Flags) (l : Nat) : List Nat :=
  let own := if lowerUnder f l = l then [l] else []
  if f.ascii then own ++ (if 97 ≤ l ∧ l ≤ 122 then [l - 32] else [])
  else
    own ++ (if 97 ≤ l ∧ l ≤ 122 then [l - 32] else [])
      ++ (lowerRuns.filter fun r => 128 ≤ r.first).filterMap fun r =>
          let x : Int := l - r.offset
          if 0 ≤ x ∧ r.lookup? x.toNat = some l then some x.toNat else none

/-- A character is a member of a set, as it stands. -/
def inItem (f : Flags) (n : Nat) : SetItem → Bool
  | .point m => n == m
  | .range first last => first ≤ n && n ≤ last
  | .kind k negated => inKind f k n != negated

/-- A lower-case form is that of a member of a set. -/
def inItemIgnoringCase (f : Flags) (l : Nat) : SetItem → Bool
  | .point m =>
    if 0xFFFF < m then l == m
    else
      let p := lowerUnder f m
      l == p || (twinsUnder f p).contains l
  | .range first last =>
    let basic := (l :: twinsUnder f l).any fun t =>
      (lowerOrigins f t).any fun x => first ≤ x && x ≤ Nat.min last 0xFFFF
    let beyond := 0xFFFF < last
      && ((first ≤ l && l ≤ last) || (first ≤ upperPoint l && upperPoint l ≤ last))
    basic || beyond
  | .kind k negated => inKind f k l != negated

/-- A character is in a set. -/
def matchesSet (f : Flags) (negated : Bool) (items : List SetItem) (c : Char) : Bool :=
  let inside :=
    if f.ignoreCase && items.any (itemIsCased f) then
      items.any (inItemIgnoringCase f (lowerUnder f c.toNat))
    else items.any (inItem f c.toNat)
  inside != negated

end FieldRules.Pattern
