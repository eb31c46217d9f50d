import FieldRules.Text.Digit
import FieldRules.Text.Utf8
import FieldRules.Yaml.Source
import FieldRules.Yaml.Token

/-!
# Names, tags and directives

The signs of a document that name things: anchors and aliases, tags, and the lines before a
document that say how to read it.
-/

namespace FieldRules.Yaml

open FieldRules.Text

/-! ## Names -/

/-- A name of at least one character. -/
def takeName : Scan (List Char) := do
  let name ← takeChars isNameChar
  if name.isEmpty then malformed else return name

/-- The name of an anchor or an alias, after the sign for it. -/
def anchorName : Scan String := do
  skip 1
  let name ← takeName
  if endOr (fun c => isGap c || "?:,]\x7d%@\x60".toList.contains c) (← peek) then
    return String.ofList name
  else malformed

/-! ## Tags -/

/-- A character that a tag may hold. -/
def isTagChar (c : Char) : Bool := isNameChar c || ";/?:@&=+$,.!~*'()[]".toList.contains c

/-- Bytes written as percent signs with two hexadecimal digits each. -/
def percentBytes : (rounds : Nat) → Scan (List UInt8)
  | 0 => return []
  | rounds + 1 => do
    if (← peek) = some '%' then do
      let digits := ((← get).rest.drop 1).take 2
      if digits.length = 2 && digits.all isHexDigit then do
        skip 3
        return UInt8.ofNat (numberIn 16 digits) :: (← percentBytes rounds)
      else malformed
    else return []

/-- The characters of a tag, some of them written as their bytes. -/
def tagChars : (rounds : Nat) → Scan (List Char)
  | 0 => return []
  | rounds + 1 => do
    let run ← takeChars isTagChar
    if (← peek) = some '%' then
      match decodeUtf8? (← percentBytes (← roundsLeft)) with
      | none => malformed
      | some cs => return run ++ cs ++ (← tagChars rounds)
    else return run

/-- The text of a tag, which is not empty. -/
def tagText : Scan String := do
  let start := (← get).index
  let text ← tagChars (← roundsLeft)
  if (← get).index = start then malformed else return String.ofList text

/-- A short form for the start of tags: a name between exclamation marks, or one of them. -/
def tagHandle : Scan String := do
  if (← peek) = some '!' then
    if (← peekAt 1) = some ' ' then do
      skip 1
      return "!"
    else do
      skip 1
      let name ← takeChars isNameChar
      if (← peek) = some '!' then do
        skip 1
        return String.ofList ('!' :: name ++ ['!'])
      else malformed
  else malformed

/-- A second exclamation mark stands before the next gap. -/
def hasHandle (rest : List Char) : Bool :=
  (rest.takeWhile fun c => !(c == ' ' || isBreak c)).contains '!'

/-- A tag: between angle brackets, alone, with a short form, or with one exclamation mark. -/
def readTag : Scan Token := do
  let tag ← match ← peekAt 1 with
    | some '<' => do
      skip 2
      let text ← tagText
      if (← peek) = some '>' then do
        skip 1
        pure (Token.tag none text)
      else malformed
    | next =>
      if endOr isGap next then do
        skip 1
        pure (Token.tag none "!")
      else if hasHandle ((← get).rest.drop 1) then do
        let handle ← tagHandle
        pure (Token.tag (some handle) (← tagText))
      else do
        skip 1
        pure (Token.tag (some "!") (← tagText))
  if endOr (fun c => c == ' ' || isBreak c) (← peek) then return tag else malformed

/-! ## Directives -/

/-- A number in a directive. -/
def directiveNumber : Scan Nat := do
  let digits ← takeChars isAsciiDigit
  if digits.isEmpty then malformed else return numberIn 10 digits

/-- A space or the end of the line comes next. -/
def atWordEnd : Scan Unit := do
  if endOr (fun c => c == ' ' || isBreak c) (← peek) then return () else malformed

/-- A version: two numbers with a point between. -/
def versionDirective : Scan Directive := do
  let _ ← takeChars (· == ' ')
  let major ← directiveNumber
  if (← peek) = some '.' then do
    skip 1
    let _ ← directiveNumber
    atWordEnd
    return .version major
  else malformed

/-- A short form and the start of tags that it stands for. -/
def handleDirective : Scan Directive := do
  let _ ← takeChars (· == ' ')
  let handle ← tagHandle
  if (← peek) = some ' ' then do
    let _ ← takeChars (· == ' ')
    let start ← tagText
    atWordEnd
    return .handle handle start
  else malformed

/-- A line that starts with a percent sign. -/
def readDirective : Scan Token := do
  skip 1
  let name ← takeName
  atWordEnd
  let directive ←
    if name = "YAML".toList then versionDirective
    else if name = "TAG".toList then handleDirective
    else do
      let _ ← takeChars fun c => !isBreak c
      pure .other
  endLine
  return .directive directive

end FieldRules.Yaml
