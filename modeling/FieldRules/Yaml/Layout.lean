import FieldRules.Table
import FieldRules.Yaml.Property
import FieldRules.Yaml.Scalar

/-!
# The layout of a document

From the text of a document to its tokens. Blocks are given by indentation: a block opens where an
entry stands further right than the block around it, and closes at the first token that stands
further left. A colon makes a key of the token it follows, which is only known once the colon is
reached; until then the start of the token is kept as a possible key. A possible key must stand on
one line and not be long.
-/

namespace FieldRules.Yaml

/-- A token that may turn out to be a key. -/
structure PossibleKey where
  /-- The number of tokens before it. -/
  tokens : Nat
  /-- Nothing but a key can stand there. -/
  required : Bool
  place : Place

/-- What is known while the tokens are made. -/
structure Layout where
  tokens : Array Token := #[]
  /-- The number of brackets and braces that are open. -/
  flowLevel : Nat := 0
  /-- The column of the innermost block; -1 outside of all blocks. -/
  indent : Int := -1
  /-- The columns of the blocks around it. -/
  outer : List Int := []
  /-- A key without a question mark may start here. -/
  mayStartKey : Bool := true
  /-- The possible key of each flow level. -/
  keys : Table Nat PossibleKey := []

/-- Makes tokens at a place. -/
abbrev Lay (α : Type) := StateT Layout Scan α

/-- The number of characters that a key without a question mark may be long. -/
def longestKey : Nat := 1024

namespace Layout

/-- Adds a token. -/
def push (l : Layout) (t : Token) : Layout := { l with tokens := l.tokens.push t }

/-- Brackets or braces are open. -/
def inFlow (l : Layout) : Bool := 0 < l.flowLevel

/-- Opens a block at a column, unless the innermost block is there or further right. -/
def openBlock (l : Layout) (column : Nat) : Layout × Bool :=
  if l.indent < column then ({ l with indent := column, outer := l.indent :: l.outer }, true)
  else (l, false)

/-- Closes the blocks that are further right than a column, of those in a list. -/
def closeBlocks (l : Layout) (column : Int) : List Int → Layout
  | [] => l
  | outer :: more =>
    if column < l.indent then
      closeBlocks { l.push .blockEnd with indent := outer, outer := more } column more
    else l

/-- Closes the blocks that are further right than a column. Indentation has no meaning inside
brackets. -/
def unwind (l : Layout) (column : Int) : Layout :=
  if l.inFlow then l else l.closeBlocks column l.outer

/-- A possible key cannot be a key any more once its line is left or it is too long. -/
def isStale (place : Place) (k : PossibleKey) : Bool :=
  k.place.line != place.line || longestKey < place.index - k.place.index

end Layout

/-- Adds a token. -/
def emit (t : Token) : Lay Unit := modify (·.push t)

/-- Gives up the possible key of the current level; none may be lost that is required. -/
def dropKey : Lay Unit := do
  let l ← get
  match Table.get? l.keys l.flowLevel with
  | none => return ()
  | some k =>
    if k.required then malformed
    else set { l with keys := Table.remove l.keys l.flowLevel }

/-- Gives up the possible keys that cannot be keys any more. -/
def dropStaleKeys : Lay Unit := do
  let place ← getThe Place
  let l ← get
  if l.keys.any fun e => Layout.isStale place e.2 && e.2.required then malformed
  else set { l with keys := l.keys.filter fun e => !Layout.isStale place e.2 }

/-- The next token may be a key. -/
def noteKey : Lay Unit := do
  let place ← getThe Place
  if (← get).mayStartKey then do
    dropKey
    modify fun l =>
      let required := !l.inFlow && l.indent == (place.column : Int)
      let key := { tokens := l.tokens.size, required, place }
      { l with keys := Table.put l.keys l.flowLevel key }

/-- Whether a key without a question mark may start after this. -/
def allowKey (b : Bool) : Lay Unit := modify fun l => { l with mayStartKey := b }

/-! ## The tokens one by one -/

/-- Closes all blocks before a line of its own. -/
def closeAll : Lay Unit := do
  modify (·.unwind (-1))
  dropKey
  allowKey false

/-- The end of the text. -/
def layEnd : Lay Unit := do
  closeAll
  emit .streamEnd

/-- A sign that starts or ends a document. -/
def layDocumentMark (t : Token) : Lay Unit := do
  closeAll
  skip 3
  emit t

/-- A line with a directive. -/
def layDirective : Lay Unit := do
  closeAll
  emit (← readDirective)

/-- An opening bracket or brace. -/
def layFlowStart (t : Token) : Lay Unit := do
  noteKey
  modify fun l => { l with flowLevel := l.flowLevel + 1 }
  allowKey true
  skip 1
  emit t

/-- A closing bracket or brace; one must be open. -/
def layFlowEnd (t : Token) : Lay Unit := do
  dropKey
  if (← get).inFlow then do
    modify fun l => { l with flowLevel := l.flowLevel - 1 }
    allowKey false
    skip 1
    emit t
  else malformed

/-- A comma inside brackets or braces. -/
def layFlowEntry : Lay Unit := do
  allowKey true
  dropKey
  skip 1
  emit .flowEntry

/-- Opens a block here if that is needed; an entry can only start where a key could. -/
def openHere (t : Token) : Lay Unit := do
  let l ← get
  if l.inFlow then return ()
  else if !l.mayStartKey then malformed
  else
    let (l, opened) := l.openBlock (← getThe Place).column
    set (if opened then l.push t else l)

/-- The hyphen of an entry of a sequence. -/
def layBlockEntry : Lay Unit := do
  openHere .blockSequence
  allowKey true
  dropKey
  skip 1
  emit .blockEntry

/-- The question mark before a key. -/
def layKey : Lay Unit := do
  openHere .blockMapping
  allowKey (!(← get).inFlow)
  dropKey
  skip 1
  emit .key

/-- Makes a key of a possible key, and opens a block at it if that is needed. -/
def turnIntoKey (k : PossibleKey) : Lay Unit := do
  let l ← get
  let (l, opened) := if l.inFlow then (l, false) else l.openBlock k.place.column
  let tokens := l.tokens.insertIdxIfInBounds k.tokens .key
  let tokens := if opened then tokens.insertIdxIfInBounds k.tokens .blockMapping else tokens
  set { l with tokens, keys := Table.remove l.keys l.flowLevel, mayStartKey := false }

/-- The colon before a value. -/
def layValue : Lay Unit := do
  let l ← get
  match Table.get? l.keys l.flowLevel with
  | some k => turnIntoKey k
  | none => do
    openHere .blockMapping
    allowKey (!l.inFlow)
    dropKey
  skip 1
  emit .value

/-- A token that may be a key. -/
def layNamed (read : Scan Token) : Lay Unit := do
  noteKey
  allowKey false
  emit (← read)

/-- A plain scalar, which may be a key. A key may start after it if it ends with its line. -/
def layPlain : Lay Unit := do
  noteKey
  let l ← get
  let (text, left) ← plainScalar l.inFlow l.indent
  allowKey left
  emit (.scalar text true)

/-- A scalar written as a block of lines; a key may start after it. -/
def layBlockScalar (folded : Bool) : Lay Unit := do
  allowKey true
  dropKey
  let text ← blockScalar folded (← get).indent
  emit (.scalar text false)

/-! ## All tokens -/

/-- Goes past white space, comments and the ends of lines. A key may start on a new line of a
block. -/
def goToToken : (rounds : Nat) → Lay Unit
  | 0 => return ()
  | rounds + 1 => do
    let _ ← takeChars (· == ' ')
    if (← peek) = some '#' then
      let _ ← takeChars fun c => !isBreak c
    if (← lineBreak).isSome then do
      modify fun l => { l with mayStartKey := l.mayStartKey || !l.inFlow }
      goToToken rounds

/-- A plain scalar may start with a character, given the one after it. -/
def startsPlain (inFlow : Bool) (c : Char) (next : Option Char) : Bool :=
  if c == '-' then !endOr isGap next
  else if c == '?' || c == ':' then !inFlow && !endOr isGap next
  else !isGap c && !",[]\x7b\x7d#&*!|>'\"%@\x60".toList.contains c

/-- Makes the next token, at a place that is no white space. -/
def layToken (c : Char) : Lay Unit := do
  let place ← getThe Place
  let inFlow := (← get).inFlow
  let next := place.rest[1]?
  let lone := inFlow || endOr isGap next
  if c = '%' && place.column = 0 then layDirective
  else if place.column = 0 && place.atDocumentMark then
    layDocumentMark (if c = '-' then .documentStart else .documentEnd)
  else if c = '[' then layFlowStart .flowSequence
  else if c = '{' then layFlowStart .flowMapping
  else if c = ']' then layFlowEnd .flowSequenceEnd
  else if c = '}' then layFlowEnd .flowMappingEnd
  else if c = ',' then layFlowEntry
  else if c = '-' && endOr isGap next then layBlockEntry
  else if c = '?' && lone then layKey
  else if c = ':' && lone then layValue
  else if c = '*' then layNamed (return .alias (← anchorName))
  else if c = '&' then layNamed (return .anchor (← anchorName))
  else if c = '!' then layNamed readTag
  else if c = '|' && !inFlow then layBlockScalar false
  else if c = '>' && !inFlow then layBlockScalar true
  else if c = '\'' then layNamed (return .scalar (← quotedScalar false) false)
  else if c = '"' then layNamed (return .scalar (← quotedScalar true) false)
  else if startsPlain inFlow c next then layPlain
  else malformed

/-- Makes the tokens that are left. A text that cannot be read on ends with a token that says so;
the tokens before it stay. -/
def layAll : (rounds : Nat) → Layout → Place → Array Token
  | 0, l, _ => l.tokens.push (.broken .malformed)
  | rounds + 1, l, place =>
    let step : Lay Bool := do
      goToToken (← roundsLeft)
      dropStaleKeys
      let here ← getThe Place
      modify (·.unwind here.column)
      match here.rest.head? with
      | none => do
        layEnd
        return true
      | some c => do
        layToken c
        return false
    match (step.run l).run place with
    | .error f => l.tokens.push (.broken f)
    | .ok ((true, l), _) => l.tokens
    | .ok ((false, l), place) => layAll rounds l place

/-- The tokens of a text. -/
def tokensOf (text : List Char) : List Token :=
  if text.all isAllowed then
    let text := if text.head? = some byteOrderMark then text.drop 1 else text
    (layAll (text.length + 1) {} { rest := text }).toList
  else [.broken .malformed]

end FieldRules.Yaml
