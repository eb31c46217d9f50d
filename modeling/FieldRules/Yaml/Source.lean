import FieldRules.YamlReader

/-!
# The text of a YAML document

A place in a text knows what is left, how far it is from the start and from the start of its line.
`Scan` is the reading of something at a place, after which the place is further on.
-/

namespace FieldRules.Yaml

/-! ## Characters -/

/-- A character that ends a line. -/
def isBreak (c : Char) : Bool := c == '\n' || c == '\x85' || c == '\u2028' || c == '\u2029'

/-- A space or a tab. -/
def isSpace (c : Char) : Bool := c == ' ' || c == '\t'

/-- What a token may be followed by: a space, a tab or the end of the line. -/
def isGap (c : Char) : Bool := isSpace c || isBreak c

/-- A letter, a digit, a hyphen or a low line. -/
def isNameChar (c : Char) : Bool := c.isAlphanum || c == '-' || c == '_'

/-- A character that a YAML text may hold. -/
def isAllowed (c : Char) : Bool :=
  let n := c.toNat
  n == 9 || n == 10 || n == 13 || (0x20 ≤ n && n ≤ 0x7e) || n == 0x85
    || (0xa0 ≤ n && n ≤ 0xd7ff) || (0xe000 ≤ n && n ≤ 0xfffd) || 0x10000 ≤ n

/-- The mark that may stand before a text to tell its encoding. -/
def byteOrderMark : Char := '\ufeff'

/-- There is no character, or one of a kind. -/
def endOr (p : Char → Bool) : Option Char → Bool
  | none => true
  | some c => p c

/-! ## Places -/

/-- A place in a text. -/
structure Place where
  rest : List Char
  index : Nat := 0
  line : Nat := 0
  column : Nat := 0
deriving Repr

/-- The place after the next character. -/
def Place.next (p : Place) : Place :=
  match p.rest with
  | [] => p
  | c :: rest =>
    if isBreak c then { rest, index := p.index + 1, line := p.line + 1 }
    else
      let column := if c = byteOrderMark then p.column else p.column + 1
      { rest, index := p.index + 1, line := p.line, column }

/-- The place so many characters on. -/
def Place.skip (p : Place) : Nat → Place
  | 0 => p
  | n + 1 => p.next.skip n

/-- Three hyphens or three points stand here, and a gap after them. -/
def Place.atDocumentMark (p : Place) : Bool :=
  let three := p.rest.take 3
  (three == ['-', '-', '-'] || three == ['.', '.', '.']) && endOr isGap p.rest[3]?

/-! ## Reading -/

/-- Reads something at a place. -/
abbrev Scan (α : Type) := StateT Place (Except ReadFault) α

/-- The text is no YAML. -/
def malformed {α : Type} : Scan α := throw .malformed

/-- The next character. -/
def peek : Scan (Option Char) := return (← get).rest.head?

/-- The character so many places on. -/
def peekAt (n : Nat) : Scan (Option Char) := return (← get).rest[n]?

/-- Goes on by so many characters. -/
def skip (n : Nat) : Scan Unit := modify (·.skip n)

/-- Takes characters as long as they are of a kind. -/
def takeChars (p : Char → Bool) : Scan (List Char) := do
  let run := (← get).rest.takeWhile p
  skip run.length
  return run

/-- Takes the end of a line, if it stands here. The next-line character counts as a line feed. -/
def lineBreak : Scan (Option Char) := do
  match ← peek with
  | some c =>
    if isBreak c then do
      skip 1
      return some (if c = '\x85' then '\n' else c)
    else return none
  | none => return none

/-- Enough rounds for a loop that takes a character in each. -/
def roundsLeft : Scan Nat := return (← get).rest.length + 1

/-- Goes to the end of the line, past a comment; nothing else may stand there. -/
def endLine : Scan Unit := do
  let _ ← takeChars (· == ' ')
  if (← peek) = some '#' then
    let _ ← takeChars fun c => !isBreak c
  if endOr isBreak (← peek) then
    let _ ← lineBreak
  else malformed

end FieldRules.Yaml
