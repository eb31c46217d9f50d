import FieldRules.Table
import FieldRules.Yaml.Tag
import FieldRules.Yaml.Token

/-!
# The nodes of a document

A document is a tree of scalars, sequences and mappings, each with its tag. `Node.ofTokens?` builds
the tree from tokens. An alias stands for the node with its anchor. Inside that node it stands for a
part that holds itself; such a node is unfolded a few times, and left empty further inside.
-/

namespace FieldRules.Yaml

/-- A part of a document. -/
inductive Node where
  | scalar (tag : Tag) (text : String)
  | sequence (tag : Tag) (items : List Node)
  | mapping (tag : Tag) (entries : List (Node × Node))
  /-- The node with an anchor, where that is not complete. -/
  | inside (anchor : String)
deriving Repr, Inhabited

namespace Node

/-- The tag of a node. -/
def tag : Node → Tag
  | scalar t _ | sequence t _ | mapping t _ => t
  | inside _ => .null

/-- A value that is left out. -/
def blank : Node := scalar (Tag.ofPlain "") ""

mutual

/-- Puts a node where that with its anchor was not complete. -/
def fill (anchor : String) (n : Node) : Node → Node
  | scalar t text => scalar t text
  | sequence t items => sequence t (fillItems anchor n items)
  | mapping t entries => mapping t (fillEntries anchor n entries)
  | inside a => if a = anchor then n else inside a

/-- Puts a node into items. -/
def fillItems (anchor : String) (n : Node) : List Node → List Node
  | [] => []
  | m :: ms => fill anchor n m :: fillItems anchor n ms

/-- Puts a node into entries. -/
def fillEntries (anchor : String) (n : Node) : List (Node × Node) → List (Node × Node)
  | [] => []
  | (k, v) :: rest => (fill anchor n k, fill anchor n v) :: fillEntries anchor n rest

end

/-- A node that may hold itself, unfolded a few times. -/
def unfolded (anchor : String) (empty n : Node) : Node :=
  Nat.repeat (fun inner => fill anchor inner n) 4 empty

end Node

/-- What is known while the tokens are read. -/
structure Reading where
  tokens : List Token
  /-- The nodes with anchors. -/
  anchors : Table String Node := []
  /-- What the short forms for the starts of tags stand for. -/
  handles : Table String String := []

/-- Reads something from tokens. -/
abbrev ReadTokens (α : Type) := StateT Reading (Except ReadFault) α

/-- The tokens are those of no document. -/
def misplaced {α : Type} : ReadTokens α := throw .malformed

/-- The next token. -/
def nextToken : ReadTokens Token := do
  match (← get).tokens with
  | [] => return .streamEnd
  | .broken f :: _ => throw f
  | t :: _ => return t

/-- Goes past the next token. -/
def dropToken : ReadTokens Unit := modify fun r => { r with tokens := r.tokens.drop 1 }

/-- Goes past a token that must come next. -/
def expect (t : Token) : ReadTokens Unit := do
  if (← nextToken) = t then dropToken else misplaced

/-! ## Properties -/

/-- The short forms for the starts of tags that are always known. -/
def usualHandles : Table String String := [("!", "!"), ("!!", Tag.knownStart)]

/-- The tag of a node as it is given: none, the tag that means none, or one in full. -/
inductive GivenTag where
  | none
  | unspecific
  | full (t : Tag)
deriving Repr, DecidableEq

/-- The tag that a tag token gives. -/
def givenTag (handle : Option String) (suffix : String) : ReadTokens GivenTag := do
  let text ← match handle with
    | none => pure suffix
    | some h => match Table.get? (← get).handles h with
      | none => misplaced
      | some start => pure (start ++ suffix)
  return if text = "!" then .unspecific else .full (Tag.ofText text)

/-- The tag that comes next, if there is one. -/
def optionalTag : ReadTokens GivenTag := do
  match ← nextToken with
  | .tag handle suffix => do
    dropToken
    givenTag handle suffix
  | _ => return .none

/-- The anchor that comes next, if there is one. -/
def optionalAnchor : ReadTokens (Option String) := do
  match ← nextToken with
  | .anchor name => do
    dropToken
    return some name
  | _ => return none

/-- An anchor and a tag in either order. -/
def properties : ReadTokens (Option String × GivenTag) := do
  match ← nextToken with
  | .tag _ _ => do
    let t ← optionalTag
    return (← optionalAnchor, t)
  | _ => do
    let a ← optionalAnchor
    return (a, ← optionalTag)

/-- The tag of a scalar. Without a tag the text of a plain one decides. -/
def scalarTag (given : GivenTag) (text : String) (plain : Bool) : Tag :=
  match given with
  | .full t => t
  | .unspecific => Tag.ofPlain text
  | .none => if plain then Tag.ofPlain text else .str

/-- The tag of a collection, which has a usual one. -/
def collectionTag (given : GivenTag) (usual : Tag) : Tag :=
  match given with
  | .full t => t
  | .unspecific | .none => usual

/-- Keeps a node under its anchor, if it has one. -/
def keep (anchor : Option String) (n : Node) : ReadTokens Unit :=
  match anchor with
  | none => return ()
  | some a => modify fun r => { r with anchors := Table.put r.anchors a n }

/-- Reads a collection, which can be referred to inside itself. -/
def keepWhile (anchor : Option String) (empty : Node) (read : ReadTokens Node) :
    ReadTokens Node :=
  match anchor with
  | none => read
  | some a => do
    keep anchor (.inside a)
    let n := Node.unfolded a empty (← read)
    modify fun r => { r with anchors := r.anchors.map fun e => (e.1, Node.fill a n e.2) }
    return n

/-- An anchor is given once. -/
def checkAnchor (anchor : Option String) : ReadTokens Unit := do
  if anchor.any (Table.has (← get).anchors) then misplaced else return ()

/-! ## Nodes -/

/-- The next token ends an entry that is left out. -/
def isNext (ts : List Token) : ReadTokens Bool := return ts.contains (← nextToken)

mutual

/-- A node. Blocks may be forbidden, and the entries of a sequence may come without a block of
their own. -/
def readNode : (rounds : Nat) → (block bare : Bool) → ReadTokens Node
  | 0, _, _ => misplaced
  | rounds + 1, block, bare => do
    match ← nextToken with
    | .alias name => do
      dropToken
      match Table.get? (← get).anchors name with
      | none => misplaced
      | some n => return n
    | _ => do
      let (anchor, given) ← properties
      checkAnchor anchor
      let sequence (read : ReadTokens (List Node)) : ReadTokens Node :=
        let tag := collectionTag given .seq
        keepWhile anchor (.sequence tag []) (return .sequence tag (← read))
      let mapping (read : ReadTokens (List (Node × Node))) : ReadTokens Node :=
        let tag := collectionTag given .map
        keepWhile anchor (.mapping tag []) (return .mapping tag (← read))
      match ← nextToken with
      | .scalar text plain => do
        dropToken
        let n := .scalar (scalarTag given text plain) text
        keep anchor n
        return n
      | .flowSequence => do
        dropToken
        sequence (readFlowItems rounds true)
      | .flowMapping => do
        dropToken
        mapping (readFlowEntries rounds true)
      | t =>
        if bare && t = .blockEntry then sequence (readBareItems rounds)
        else if block && t = .blockSequence then do
          dropToken
          sequence (readBlockItems rounds)
        else if block && t = .blockMapping then do
          dropToken
          mapping (readBlockEntries rounds)
        else if anchor.isSome || given ≠ .none then do
          let n := .scalar (scalarTag given "" (given = .none)) ""
          keep anchor n
          return n
        else misplaced

/-- The items of a block sequence up to its end. -/
def readBlockItems : (rounds : Nat) → ReadTokens (List Node)
  | 0 => misplaced
  | rounds + 1 => do
    if ← isNext [.blockEntry] then do
      dropToken
      let item ← if ← isNext [.blockEntry, .blockEnd] then pure Node.blank
        else readNode rounds true false
      return item :: (← readBlockItems rounds)
    else do
      expect .blockEnd
      return []

/-- The items of a sequence that stands at the column of its key. -/
def readBareItems : (rounds : Nat) → ReadTokens (List Node)
  | 0 => misplaced
  | rounds + 1 => do
    if ← isNext [.blockEntry] then do
      dropToken
      let item ← if ← isNext [.blockEntry, .key, .value, .blockEnd] then pure Node.blank
        else readNode rounds true false
      return item :: (← readBareItems rounds)
    else return []

/-- The entries of a block mapping up to its end. -/
def readBlockEntries : (rounds : Nat) → ReadTokens (List (Node × Node))
  | 0 => misplaced
  | rounds + 1 => do
    if ← isNext [.key] then do
      dropToken
      let key ← readPart rounds true [.key, .value, .blockEnd]
      let value ← if ← isNext [.value] then do
          dropToken
          readPart rounds true [.key, .value, .blockEnd]
        else pure Node.blank
      return (key, value) :: (← readBlockEntries rounds)
    else do
      expect .blockEnd
      return []

/-- A key or a value, which is left out before some tokens. -/
def readPart : (rounds : Nat) → (block : Bool) → List Token → ReadTokens Node
  | 0, _, _ => misplaced
  | rounds + 1, block, stops => do
    if ← isNext stops then return Node.blank else readNode rounds block block

/-- The items of a sequence in brackets up to its end. -/
def readFlowItems : (rounds : Nat) → (first : Bool) → ReadTokens (List Node)
  | 0, _ => misplaced
  | rounds + 1, first => do
    if ← isNext [.flowSequenceEnd] then do
      dropToken
      return []
    else do
      if !first then expect .flowEntry
      if ← isNext [.key] then do
        dropToken
        let key ← readPart rounds false [.value, .flowEntry, .flowSequenceEnd]
        let value ← if ← isNext [.value] then do
            dropToken
            readPart rounds false [.flowEntry, .flowSequenceEnd]
          else pure Node.blank
        return .mapping .map [(key, value)] :: (← readFlowItems rounds false)
      else if ← isNext [.flowSequenceEnd] then do
        dropToken
        return []
      else do
        let item ← readNode rounds false false
        return item :: (← readFlowItems rounds false)

/-- The entries of a mapping in braces up to its end. -/
def readFlowEntries : (rounds : Nat) → (first : Bool) → ReadTokens (List (Node × Node))
  | 0, _ => misplaced
  | rounds + 1, first => do
    if ← isNext [.flowMappingEnd] then do
      dropToken
      return []
    else do
      if !first then expect .flowEntry
      if ← isNext [.key] then do
        dropToken
        let key ← readPart rounds false [.value, .flowEntry, .flowMappingEnd]
        let value ← if ← isNext [.value] then do
            dropToken
            readPart rounds false [.flowEntry, .flowMappingEnd]
          else pure Node.blank
        return (key, value) :: (← readFlowEntries rounds false)
      else if ← isNext [.flowMappingEnd] then do
        dropToken
        return []
      else do
        let key ← readNode rounds false false
        return (key, Node.blank) :: (← readFlowEntries rounds false)

end

/-! ## Documents -/

/-- The directives before a document. -/
def readDirectives : (rounds : Nat) → (version : Bool) → ReadTokens Unit
  | 0, _ => misplaced
  | rounds + 1, version => do
    match ← nextToken with
    | .directive d => do
      dropToken
      match d with
      | .other => readDirectives rounds version
      | .version major =>
        if version || major ≠ 1 then misplaced else readDirectives rounds true
      | .handle handle start =>
        if Table.has (← get).handles handle then misplaced
        else do
          modify fun r => { r with handles := Table.put r.handles handle start }
          readDirectives rounds version
    | _ => return ()

/-- Goes past the ends of documents. -/
def skipDocumentEnds : ReadTokens Unit :=
  modify fun r => { r with tokens := r.tokens.dropWhile (· = .documentEnd) }

/-- A document that may be there, up to the end of the tokens; there must be no second one. -/
def readDocument (rounds : Nat) : ReadTokens (Option Node) := do
  let root ←
    if ← isNext [.streamEnd] then pure none
    else
      let first ← nextToken
      match first with
      | .directive _ | .documentStart => do
        readDirectives rounds false
        modify fun r => { r with handles := r.handles ++ usualHandles }
        expect .documentStart
        match ← nextToken with
        | .directive _ | .documentStart | .documentEnd | .streamEnd => pure (some Node.blank)
        | _ => some <$> readNode rounds true false
      | _ => do
        modify fun r => { r with handles := usualHandles }
        some <$> readNode rounds true false
  skipDocumentEnds
  expect .streamEnd
  return root

/-- The root of the one document that tokens make, if they make one. -/
def Node.ofTokens? (tokens : List Token) : Except ReadFault (Option Node) :=
  ((readDocument (3 * tokens.length + 3)).run { tokens }).map (·.1)

end FieldRules.Yaml
