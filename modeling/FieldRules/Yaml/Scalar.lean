import FieldRules.Text.Digit
import FieldRules.Text.Surrogates
import FieldRules.Yaml.Source

/-!
# The texts of scalars

A scalar is written plainly, between quotes or as a block of lines. In the first two ways a single
end of line inside stands for a space and further ones for themselves; in a block that is so only
when it is folded, and only between lines that do not start with a space.
-/

namespace FieldRules.Yaml

open FieldRules.Text

/-- What the end of a line and the ends of empty lines after it stand for. -/
def foldBreaks (first : Char) (more : List Char) : List Char :=
  if first != '\n' then first :: more
  else if more.isEmpty then [' ']
  else more

/-! ## Between quotes -/

/-- The character that a letter stands for after a backslash. -/
def escapedPoint? (c : Char) : Option Nat :=
  match c with
  | '0' => some 0x00
  | 'a' => some 0x07
  | 'b' => some 0x08
  | 't' | '\t' => some 0x09
  | 'n' => some 0x0a
  | 'v' => some 0x0b
  | 'f' => some 0x0c
  | 'r' => some 0x0d
  | 'e' => some 0x1b
  | ' ' | '"' | '\\' | '/' => some c.toNat
  | 'N' => some 0x85
  | '_' => some 0xa0
  | 'L' => some 0x2028
  | 'P' => some 0x2029
  | _ => none

/-- The number of hexadecimal digits that a letter asks for after a backslash. -/
def escapeWidth? : Char → Option Nat
  | 'x' => some 2
  | 'u' => some 4
  | 'U' => some 8
  | _ => none

/-- A code point by so many hexadecimal digits. Numbers beyond the last code point are refused
outside the rules of YAML. -/
def hexEscape (width : Nat) : Scan Nat := do
  let digits := (← get).rest.take width
  if digits.length = width && digits.all isHexDigit then
    let n := numberIn 16 digits
    if 0x80000000 ≤ n then throw .numberTooLarge
    else if 0x110000 ≤ n then throw .notANumber
    else do
      skip width
      return n
  else malformed

/-- The ends of lines with nothing but spaces between them. -/
def quotedBreaks : (rounds : Nat) → Scan (List Char)
  | 0 => return []
  | rounds + 1 => do
    if (← get).atDocumentMark then malformed
    else do
      let _ ← takeChars isSpace
      match ← lineBreak with
      | some b => return b :: (← quotedBreaks rounds)
      | none => return []

/-- Spaces and ends of lines between quotes. -/
def quotedGap : Scan (List Char) := do
  let spaces ← takeChars isSpace
  if (← peek).isNone then malformed
  else match ← lineBreak with
    | none => return spaces
    | some b => return foldBreaks b (← quotedBreaks (← roundsLeft))

/-- What a backslash and the characters after it stand for; the end of a line is left out. -/
def escape : Scan (List Nat) := do
  match ← peek with
  | none => malformed
  | some c =>
    match escapedPoint? c, escapeWidth? c with
    | some n, _ => do
      skip 1
      return [n]
    | none, some width => do
      skip 1
      return [← hexEscape width]
    | none, none =>
      if (← lineBreak).isSome then
        return (← quotedBreaks (← roundsLeft)).map Char.toNat
      else malformed

/-- A character between quotes that stands for itself wherever it is. -/
def isQuotable (c : Char) : Bool := !isGap c && c != '\'' && c != '"' && c != '\\'

/-- One thing between quotes that is neither a gap nor ends the scalar. -/
def quotedPiece (double : Bool) : Scan (Option (List Nat)) := do
  match ← peek with
  | none => return none
  | some c =>
    if isQuotable c then return some ((← takeChars isQuotable).map Char.toNat)
    else if isGap c then return none
    else if double then
      if c = '"' then return none
      else if c = '\\' then do
        skip 1
        return some (← escape)
      else do
        skip 1
        return some [c.toNat]
    else if c = '\'' then
      if (← peekAt 1) = some '\'' then do
        skip 2
        return some [c.toNat]
      else return none
    else do
      skip 1
      return some [c.toNat]

/-- The text between quotes after the opening one, up to and with the closing one. -/
def quotedBody (double : Bool) : (rounds : Nat) → Scan (List Nat)
  | 0 => malformed
  | rounds + 1 => do
    match ← quotedPiece double with
    | some piece => return piece ++ (← quotedBody double rounds)
    | none =>
      if (← peek) = some (if double then '"' else '\'') then do
        skip 1
        return []
      else do
        let gap ← quotedGap
        return gap.map Char.toNat ++ (← quotedBody double rounds)

/-- A scalar between quotes. Halves of characters are not joined here. -/
def quotedScalar (double : Bool) : Scan String := do
  skip 1
  return String.ofList ((← quotedBody double (← roundsLeft)).map charOfPoint)

/-! ## Plain -/

/-- A character that has a meaning of its own inside brackets and braces. -/
def isFlowSign (c : Char) : Bool := c == ',' || c == '[' || c == ']' || c == '{' || c == '}'

/-- The number of characters that go on a plain scalar: up to a gap, a colon before a gap, and
inside brackets a sign or a question mark. -/
def plainLength (inFlow : Bool) : List Char → Nat
  | [] => 0
  | c :: rest =>
    if isGap c || (inFlow && (isFlowSign c || c == '?')) then 0
    else if c == ':' && endOr (fun d => isGap d || (inFlow && isFlowSign d)) rest.head? then 0
    else plainLength inFlow rest + 1

/-- The ends of empty lines after a line of a plain scalar; none when a document ends there. -/
def plainBreaks : (rounds : Nat) → Scan (Option (List Char))
  | 0 => return some []
  | rounds + 1 => do
    let _ ← takeChars (· == ' ')
    match ← lineBreak with
    | none => return some []
    | some b =>
      if (← get).atDocumentMark then return none
      else return (← plainBreaks rounds).map (b :: ·)

/-- What the gap after a part of a plain scalar stands for, and whether it leaves the line. -/
def plainGap : Scan (List Char × Bool) := do
  let spaces ← takeChars (· == ' ')
  match ← lineBreak with
  | none => return (spaces, false)
  | some b =>
    if (← get).atDocumentMark then return ([], true)
    else match ← plainBreaks (← roundsLeft) with
      | none => return ([], true)
      | some more => return (foldBreaks b more, true)

/-- The parts of a plain scalar after a gap, which is kept only if there is a part. The flag tells
whether the last gap left the line. Lines go on the scalar if they are indented enough. -/
def plainParts (inFlow : Bool) (indent : Int) :
    (rounds : Nat) → (gap : List Char) → (left : Bool) → Scan (List Char × Bool)
  | 0, _, left => return ([], left)
  | rounds + 1, gap, left => do
    let place ← get
    let n := if place.rest.head? = some '#' then 0 else plainLength inFlow place.rest
    if n = 0 then return ([], left)
    else do
      skip n
      let (after, left) ← plainGap
      let here := gap ++ place.rest.take n
      let next ← get
      if after.isEmpty || next.rest.head? = some '#' || (!inFlow && next.column < indent) then
        return (here, left)
      else do
        let (text, left) ← plainParts inFlow indent rounds after left
        return (here ++ text, left)

/-- A plain scalar, and whether the text after it starts on a new line. -/
def plainScalar (inFlow : Bool) (parent : Int) : Scan (String × Bool) := do
  let (text, left) ← plainParts inFlow (parent + 1) (← roundsLeft) [] false
  return (String.ofList text, left)

/-! ## Blocks -/

/-- What becomes of the ends of lines at the end of a block. -/
inductive Chomping where
  /-- One is kept. -/
  | clip
  | strip
  | keep
deriving Repr, DecidableEq

/-- The sign for what becomes of the end of a block. -/
def chompingSign : Scan (Option Chomping) := do
  match ← peek with
  | some '+' => do
    skip 1
    return some .keep
  | some '-' => do
    skip 1
    return some .strip
  | _ => return none

/-- The digit for the indentation of a block, which is not zero. -/
def indentDigit : Scan (Option Nat) := do
  match ← peek with
  | some c =>
    if c = '0' then malformed
    else if c.isDigit then do
      skip 1
      return some (c.toNat - '0'.toNat)
    else return none
  | none => return none

/-- The signs after the one that begins a block, in either order. -/
def blockHeader : Scan (Chomping × Option Nat) := do
  let before ← chompingSign
  let digit ← indentDigit
  let after ← if before.isNone && digit.isSome then chompingSign else pure none
  if endOr (fun c => c == ' ' || isBreak c) (← peek) then do
    endLine
    return ((before.orElse fun _ => after).getD .clip, digit)
  else malformed

/-- The ends of the empty lines before a block, and the widest of their indentations and that of
the line after them. -/
def leadingBreaks : (rounds widest : Nat) → Scan (List Char × Nat)
  | 0, widest => return ([], widest)
  | rounds + 1, widest => do
    let spaces ← takeChars (· == ' ')
    let column := (← get).column
    let widest := if spaces.isEmpty then widest else Nat.max widest column
    match ← lineBreak with
    | none => return ([], widest)
    | some b => do
      let (more, widest) ← leadingBreaks rounds widest
      return (b :: more, widest)

/-- Goes to a column, as far as there are spaces. -/
def indentTo (column : Nat) : Scan Unit := do
  let place ← get
  skip ((place.rest.take (column - place.column)).takeWhile (· == ' ')).length

/-- The ends of empty lines inside a block. -/
def blockBreaks (indent : Nat) : (rounds : Nat) → Scan (List Char)
  | 0 => return []
  | rounds + 1 => do
    indentTo indent
    match ← lineBreak with
    | none => return []
    | some b => return b :: (← blockBreaks indent rounds)

/-- A line of the block starts here. -/
def atBlockLine (indent : Nat) : Scan Bool := do
  let place ← get
  return place.column == indent && !place.rest.isEmpty

/-- The text of a block without the ends of its last lines, the end of the last line and the ends
of the empty lines after it. -/
def blockLines (folded : Bool) (indent : Nat) :
    (rounds : Nat) → (before : List Char) → Scan (List Char × List Char × List Char)
  | 0, before => return ([], [], before)
  | rounds + 1, before => do
    if ← atBlockLine indent then do
      let spaced := (← peek).any isSpace
      let line ← takeChars fun c => !isBreak c
      let last := (← lineBreak).toList
      let more ← blockBreaks indent (← roundsLeft)
      if ← atBlockLine indent then do
        let nextSpaced := (← peek).any isSpace
        let fold := folded && last == ['\n'] && !spaced && !nextSpaced
        let between := if !fold then last else if more.isEmpty then [' '] else []
        let (text, final, after) ← blockLines folded indent rounds more
        return (before ++ line ++ between ++ text, final, after)
      else return (before ++ line, last, more)
    else return ([], [], before)

/-- A scalar written as a block of lines that are indented more than what it belongs to. -/
def blockScalar (folded : Bool) (parent : Int) : Scan String := do
  skip 1
  let (chomping, digit) ← blockHeader
  let least := Nat.max 1 (parent + 1).toNat
  let (indent, before) ← match digit with
    | none => do
      let (breaks, widest) ← leadingBreaks (← roundsLeft) 0
      pure (Nat.max least widest, breaks)
    | some n => do
      let indent := least + n - 1
      pure (indent, ← blockBreaks indent (← roundsLeft))
  let (text, last, after) ← blockLines folded indent (← roundsLeft) before
  return String.ofList <| text ++ match chomping with
    | .strip => []
    | .clip => last
    | .keep => last ++ after

end FieldRules.Yaml
