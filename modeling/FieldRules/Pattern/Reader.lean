import FieldRules.Number.Reading
import FieldRules.Pattern.Basic
import FieldRules.Table
import FieldRules.Text.Identifier

/-!
# Reading patterns

From the text of a pattern to its parts. The text is first cut into signs, a backslash taking the
character after it along. The reader then goes through the signs, keeping track of the groups that
were opened: a group can be referred to once it is closed.
-/

namespace FieldRules.Pattern

open FieldRules.Text

/-- A sign of a pattern's text. -/
inductive Sign where
  | char (c : Char)
  /-- A backslash and the character after it. -/
  | escape (c : Char)
  /-- A backslash at the end. -/
  | dangling
deriving Repr, DecidableEq

/-- Cuts a text into signs. -/
def signs : List Char → List Sign
  | [] => []
  | ['\\'] => [.dangling]
  | '\\' :: c :: rest => .escape c :: signs rest
  | c :: rest => .char c :: signs rest

/-- The characters of a sign. -/
def Sign.chars : Sign → List Char
  | .char c => [c]
  | .escape c => ['\\', c]
  | .dangling => ['\\']

/-- The least and the greatest number of characters that something matches. -/
abbrev Width := Nat × Nat

/-- No width is larger than this one. -/
def widthLimit : Nat := Nat.pow 2 64

/-- What the reader knows. -/
structure ReaderState where
  rest : List Sign
  /-- The options of the whole pattern. -/
  flags : Flags := {}
  names : Table String Nat := []
  /-- The widths of the groups from number one on; none while a group is open. -/
  widths : Array (Option Width) := #[]
  /-- Inside a condition on what stands before: the number of the first group opened in it. -/
  lookbehind : Option Nat := none
  /-- Groups that conditions ask for by number. -/
  asked : List Nat := []

/-- Reads something. -/
abbrev Read (α : Type) := StateT ReaderState (Except PatternError) α

/-- Gives up on the pattern. -/
def malformed {α : Type} : Read α := throw .malformed

/-! ## Signs -/

/-- The next sign. -/
def peek : Read (Option Sign) := return (← get).rest.head?

/-- A text must not come to a backslash at its end. -/
def checkNext (rest : List Sign) : Except PatternError Unit :=
  if rest.head? = some .dangling then .error .malformed else .ok ()

/-- Takes the next sign. -/
def next : Read (Option Sign) := do
  let s ← get
  match s.rest with
  | [] => return none
  | sign :: rest => do
    checkNext rest
    set { s with rest }
    return some sign

/-- Takes the next sign if it is the given character. -/
def take (c : Char) : Read Bool := do
  if (← peek) = some (.char c) then do
    let _ ← next
    return true
  else return false

/-- Takes up to `n` characters of a class. -/
def takeSome (p : Char → Bool) : Nat → Read (List Char)
  | 0 => return []
  | n + 1 => do
    match ← peek with
    | some (.char c) =>
      if p c then do
        let _ ← next
        return c :: (← takeSome p n)
      else return []
    | _ => return []

/-- Takes a name up to a character that ends it; neither may be missing. -/
def takeName (stop : Char) : (fuel : Nat) → List Char → Read (List Char)
  | 0, _ => malformed
  | fuel + 1, name => do
    match ← next with
    | none => malformed
    | some sign =>
      if sign = .char stop then
        if name.isEmpty then malformed else return name
      else takeName stop fuel (name ++ sign.chars)

/-- Enough steps to go through all signs that are left. -/
def stepsLeft : Read Nat := return (← get).rest.length + 1

/-! ## Widths -/

mutual

/-- The width of one part. -/
def nodeWidth (widths : Array (Option Width)) : Node → Width
  | .point _ _ | .anyChar | .set _ _ => (1, 1)
  | .anchor _ | .look _ _ _ => (0, 0)
  | .choice branches => branchWidth widths branches
  | .loop _ least most body =>
    let (lo, hi) := listWidth widths body
    let hi := match most with
      | none => if hi = 0 then 0 else widthLimit
      | some m => hi * m
    (lo * least, hi)
  | .group _ body | .plain body | .scoped _ _ body | .atomic body => listWidth widths body
  | .again g => ((widths[g - 1]?.bind id)).getD (0, 0)
  | .cond _ yes no =>
    let (lo, hi) := listWidth widths yes
    let (lo', hi') := listWidth widths no
    (Nat.min lo lo', Nat.max hi hi')

/-- The width of parts one after the other. -/
def listWidth (widths : Array (Option Width)) : List Node → Width
  | [] => (0, 0)
  | n :: ns =>
    let (lo, hi) := nodeWidth widths n
    let (lo', hi') := listWidth widths ns
    (Nat.min (lo + lo') widthLimit, Nat.min (hi + hi') widthLimit)

/-- The width of any of some branches. -/
def branchWidth (widths : Array (Option Width)) : List (List Node) → Width
  | [] => (0, 0)
  | [b] => listWidth widths b
  | b :: bs =>
    let (lo, hi) := listWidth widths b
    let (lo', hi') := branchWidth widths bs
    (Nat.min lo lo', Nat.max hi hi')

end

/-! ## Groups -/

/-- The number of a group that is opened now, perhaps with a name; a name is given once. -/
def openGroup (name : Option String) : Read Nat := do
  let s ← get
  let index := s.widths.size + 1
  match name with
  | none => set { s with widths := s.widths.push none }
  | some n =>
    if Table.has s.names n then malformed
    else set { s with widths := s.widths.push none, names := Table.put s.names n index }
  return index

/-- Closes a group around its parts. -/
def closeGroup (index : Nat) (body : List Node) : Read Unit :=
  modify fun s => { s with widths := s.widths.set! (index - 1) (some (listWidth s.widths body)) }

/-- A group was closed. -/
def isClosed (s : ReaderState) (g : Nat) : Bool := 0 < g && (s.widths[g - 1]?.bind id).isSome

/-- A condition on what stands before may not refer to a group of its own. -/
def checkLookbehind (g : Nat) : Read Unit := do
  let s ← get
  match s.lookbehind with
  | none => return ()
  | some first => if isClosed s g && g < first then return () else malformed

/-- A reference to a group that is there and closed. -/
def referTo (g : Nat) : Read Node := do
  if isClosed (← get) g then do
    checkLookbehind g
    return .again g
  else malformed

/-! ## Escapes -/

/-- A code point of exactly `n` hexadecimal digits. -/
def hexPoint (n : Nat) : Read Nat := do
  let ds ← takeSome isHexDigit n
  let v := numberIn 16 ds
  if ds.length = n ∧ v < 0x110000 then return v else malformed

/-- The control character that a letter stands for after a backslash. -/
def controlPoint? : Char → Option Nat
  | 'a' => some 7
  | 'f' => some 12
  | 'n' => some 10
  | 'r' => some 13
  | 't' => some 9
  | 'v' => some 11
  | '\\' => some 92
  | _ => none

/-- The named class that a letter stands for after a backslash. -/
def kindOf? : Char → Option SetItem
  | 'd' => some (.kind .digit false)
  | 'D' => some (.kind .digit true)
  | 's' => some (.kind .space false)
  | 'S' => some (.kind .space true)
  | 'w' => some (.kind .word false)
  | 'W' => some (.kind .word true)
  | _ => none

/-- The condition that a letter stands for after a backslash. -/
def anchorOf? : Char → Option Anchor
  | 'A' => some .textStart
  | 'Z' => some .textEnd
  | 'b' => some .boundary
  | 'B' => some .notBoundary
  | _ => none

/-- A letter of ASCII. -/
def isLetterSign (c : Char) : Bool := ('a' ≤ c && c ≤ 'z') || ('A' ≤ c && c ≤ 'Z')

/-- What a backslash and a character mean in a set. -/
def setEscape (c : Char) : Read SetItem := do
  match controlPoint? c, kindOf? c with
  | some n, _ => return .point n
  | none, some k => return k
  | none, none =>
    if c = 'b' then return .point 8
    else if c = 'x' then return .point (← hexPoint 2)
    else if c = 'u' then return .point (← hexPoint 4)
    else if c = 'U' then return .point (← hexPoint 8)
    else if isOctalDigit c then do
      let v := numberIn 8 (c :: (← takeSome isOctalDigit 2))
      if v ≤ 0o377 then return .point v else malformed
    else if isAsciiDigit c || isLetterSign c then malformed
    else return .point c.toNat

/-- A backslash and a digit: a character by its octal number, or a group. -/
def digitEscape (c : Char) : Read Node := do
  match ← takeSome isAsciiDigit 1 with
  | [] => referTo (numberIn 10 [c])
  | ds => do
    let ds := c :: ds
    if ds.all isOctalDigit then
      match ← takeSome isOctalDigit 1 with
      | [] => referTo (numberIn 10 ds)
      | more =>
        let v := numberIn 8 (ds ++ more)
        if v ≤ 0o377 then return .point v false else malformed
    else referTo (numberIn 10 ds)

/-- What a backslash and a character mean outside a set. -/
def escapeNode (c : Char) : Read Node := do
  match anchorOf? c, kindOf? c, controlPoint? c with
  | some a, _, _ => return .anchor a
  | none, some k, _ => return .set false [k]
  | none, none, some n => return .point n false
  | none, none, none =>
    if c = 'x' then return .point (← hexPoint 2) false
    else if c = 'u' then return .point (← hexPoint 4) false
    else if c = 'U' then return .point (← hexPoint 8) false
    else if c = '0' then return .point (numberIn 8 (← takeSome isOctalDigit 2)) false
    else if isAsciiDigit c then digitEscape c
    else if isLetterSign c then malformed
    else return .point c.toNat false

/-! ## Sets -/

/-- One end of a range, or a member that is none. -/
def setMember : Sign → Read SetItem
  | .char c => return .point c.toNat
  | .escape c => setEscape c
  | .dangling => malformed

/-- The members of a set up to its closing bracket, which may stand for itself as the first. -/
def setMembers : (fuel : Nat) → List SetItem → Read (List SetItem)
  | 0, _ => malformed
  | fuel + 1, items => do
    match ← next with
    | none => malformed
    | some sign =>
      if sign = .char ']' && !items.isEmpty then return items
      else do
        let first ← setMember sign
        if ← take '-' then
          match ← next with
          | none => malformed
          | some stop =>
            if stop = .char ']' then return items ++ [first, .point '-'.toNat]
            else do
              let last ← setMember stop
              match first, last with
              | .point a, .point b =>
                if b < a then malformed else setMembers fuel (items ++ [.range a b])
              | _, _ => malformed
        else setMembers fuel (items ++ [first])

/-- A set after its opening bracket. -/
def setNode : Read Node := do
  let negated ← take '^'
  let items := (← setMembers (← stepsLeft) []).eraseDups
  match items with
  | [.point n] => return .point n negated
  | _ => return .set negated items

/-! ## Repetition -/

/-- The number that digits write, if there are any; it must be below the limit. -/
def timesOf (ds : List Char) : Read (Option Nat) :=
  if ds.isEmpty then return none
  else
    let n := Number.digitsValue ds
    if repetitionLimit ≤ n then throw .tooManyTimes else return some n

/-- The bounds between braces; none if the brace stands for itself. -/
def braceBounds : Read (Option (Nat × Option Nat)) := do
  let start := (← get).rest
  if (← peek) = some (.char '}') then return none
  else do
    let low ← takeSome isAsciiDigit (← stepsLeft)
    let high ← if ← take ',' then takeSome isAsciiDigit (← stepsLeft) else pure low
    if ← take '}' then do
      let least := (← timesOf low).getD 0
      let most ← timesOf high
      if most.any (· < least) then malformed else return some (least, most)
    else do
      modify fun s => { s with rest := start }
      return none

/-- The bounds that a sign of repetition gives; none if the sign stands for itself. -/
def boundsOf (c : Char) : Read (Option (Nat × Option Nat)) :=
  if c = '?' then return some (0, some 1)
  else if c = '*' then return some (0, none)
  else if c = '+' then return some (1, none)
  else braceBounds

/-- The part that is repeated, as parts in a row. Conditions on places and repetitions cannot be
repeated. -/
def repeatable : Node → Read (List Node)
  | .anchor _ => malformed
  | .loop _ _ _ _ => malformed
  | .plain body => return body
  | n => return [n]

/-- The sign after a repetition that tells how it goes about it. -/
def modeSign : Read Mode := do
  if ← take '?' then return .lazy
  else if ← take '+' then return .possessive
  else return .greedy

/-- Puts a repetition around the last of the parts read so far, which stand in reverse. -/
def repeatLast (bounds : Nat × Option Nat) : List Node → Read (List Node)
  | [] => malformed
  | last :: before => do
    let body ← repeatable last
    let mode ← modeSign
    return .loop mode bounds.1 bounds.2 body :: before

/-! ## Options -/

/-- The option of a letter. -/
def flagOf? : Char → Option Flags
  | 'i' => some { ignoreCase := true }
  | 'm' => some { multiline := true }
  | 's' => some { dotAll := true }
  | 'x' => some { verbose := true }
  | 'a' => some { ascii := true }
  | 'u' => some { unicode := true }
  | 't' => some {}
  | _ => none

/-- All options of two sets. -/
def joinFlags (f g : Flags) : Flags where
  ignoreCase := f.ignoreCase || g.ignoreCase
  multiline := f.multiline || g.multiline
  dotAll := f.dotAll || g.dotAll
  verbose := f.verbose || g.verbose
  ascii := f.ascii || g.ascii
  unicode := f.unicode || g.unicode

/-- Two sets have an option in common. -/
def meetFlags (f g : Flags) : Bool :=
  (f.ignoreCase && g.ignoreCase) || (f.multiline && g.multiline) || (f.dotAll && g.dotAll)
    || (f.verbose && g.verbose)

/-- The options to turn on, from the first letter on, and the sign that ended them. -/
def flagsOn : (fuel : Nat) → Char → Flags → Read (Flags × Char)
  | 0, _, _ => malformed
  | fuel + 1, c, on => do
    match flagOf? c with
    | none => malformed
    | some f =>
      let on := joinFlags on f
      if on.ascii && on.unicode then malformed
      else match ← next with
        | some (.char d) =>
          if d = ')' ∨ d = ':' ∨ d = '-' then return (on, d) else flagsOn fuel d on
        | _ => malformed

/-- The options to turn off, from the first letter on, up to the colon. -/
def flagsOff : (fuel : Nat) → Char → Flags → Read Flags
  | 0, _, _ => malformed
  | fuel + 1, c, off => do
    match flagOf? c with
    | none => malformed
    | some f =>
      if f.ascii || f.unicode || c == 't' then malformed
      else
        let off := joinFlags off f
        match ← next with
        | some (.char d) => if d = ':' then return off else flagsOff fuel d off
        | _ => malformed

/-- Options after a parenthesis and a question mark: for the whole pattern, or for a group, turned
on and turned off. -/
def readFlags (c : Char) : Read (Option (Flags × Flags)) := do
  let fuel ← stepsLeft
  let (on, stop) ← if c = '-' then pure ({}, '-') else flagsOn fuel c {}
  if stop = ')' then do
    modify fun s => { s with flags := joinFlags s.flags on }
    return none
  else if stop = ':' then return some (on, {})
  else match ← next with
    | some (.char d) => do
      let off ← flagsOff fuel d {}
      if meetFlags on off then malformed else return some (on, off)
    | _ => malformed

/-! ## Groups and sequences -/

/-- What an opening parenthesis begins. -/
inductive Opening where
  | capture (name : Option String)
  | noCapture
  | atomicGroup
  | lookAround (behind negated : Bool)
  | condition
  | comment
  | backReference
  | options (first : Char)

/-- A name of a group. -/
def groupName (stop : Char) : Read String := do
  let name ← takeName stop (← stepsLeft) []
  if isIdentifier name then return String.ofList name else malformed

/-- What a parenthesis begins, from the signs after it. -/
def readOpening : Read Opening := do
  if ← take '?' then
    match ← next with
    | some (.char c) =>
      if c = 'P' then
        if ← take '<' then return .capture (some (← groupName '>'))
        else if ← take '=' then return .backReference
        else malformed
      else if c = ':' then return .noCapture
      else if c = '#' then return .comment
      else if c = '=' then return .lookAround false false
      else if c = '!' then return .lookAround false true
      else if c = '<' then
        match ← next with
        | some (.char '=') => return .lookAround true false
        | some (.char '!') => return .lookAround true true
        | _ => malformed
      else if c = '(' then return .condition
      else if c = '>' then return .atomicGroup
      else return .options c
    | _ => malformed
  else return .capture none

/-- Goes past a comment. -/
def skipComment (stop : Char) (mayEnd : Bool) : (fuel : Nat) → Read Unit
  | 0 => malformed
  | fuel + 1 => do
    match ← next with
    | none => if mayEnd then return () else malformed
    | some sign => if sign = .char stop then return () else skipComment stop mayEnd fuel

/-- The closing parenthesis of a group. -/
def closing : Read Unit := do
  if ← take ')' then return () else malformed

/-- A back reference by name. -/
def namedReference : Read Node := do
  let name ← groupName ')'
  match Table.get? (← get).names name with
  | none => malformed
  | some g => referTo g

/-- The group that a condition asks for, by name or by number. -/
def conditionGroup : Read Nat := do
  let name ← takeName ')' (← stepsLeft) []
  let g ← if isIdentifier name then
      match Table.get? (← get).names (String.ofList name) with
      | none => malformed
      | some g => pure g
    else match Number.readInt? name with
      | none => malformed
      | some n =>
        if n ≤ 0 || 1073741823 ≤ n then malformed
        else do
          modify fun s => { s with asked := n.toNat :: s.asked }
          pure n.toNat
  checkLookbehind g
  return g

/-- White space that a verbose pattern may hold. -/
def isLayout (c : Char) : Bool := c == ' ' || (9 ≤ c.toNat && c.toNat ≤ 13)

mutual

/-- Branches between bars, up to a closing parenthesis or the end. -/
def readChoice : (fuel : Nat) → (verbose outermost : Bool) → List (List Node) → Read (List Node)
  | 0, _, _, _ => malformed
  | fuel + 1, verbose, outermost, before => do
    let branch ← readSequence fuel verbose (outermost && before.isEmpty) []
    let branches := before ++ [branch]
    if ← take '|' then
      let state ← get
      let verbose := if outermost then state.flags.verbose else verbose
      readChoice fuel verbose outermost branches
    else match branches with
      | [only] => return only
      | _ => return [.choice branches]

/-- Parts in a row, up to a bar, a closing parenthesis or the end. Options for the whole pattern may
stand where it starts. The parts read so far stand in reverse. -/
def readSequence : (fuel : Nat) → (verbose first : Bool) → List Node → Read (List Node)
  | 0, _, _, _ => malformed
  | fuel + 1, verbose, first, done => do
    match ← peek with
    | none => return done.reverse
    | some (.char c) =>
      if c = '|' || c = ')' then return done.reverse
      else do
        let _ ← next
        if verbose && isLayout c then readSequence fuel verbose first done
        else if verbose && c == '#' then do
          skipComment '\n' true (← stepsLeft)
          readSequence fuel verbose first done
        else if c = '[' then do
          let node ← setNode
          readSequence fuel verbose first (node :: done)
        else if c = '*' || c = '+' || c = '?' || c = '{' then
          match ← boundsOf c with
          | none => readSequence fuel verbose first (.point c.toNat false :: done)
          | some bounds => do
            let done ← repeatLast bounds done
            readSequence fuel verbose first done
        else if c = '.' then readSequence fuel verbose first (.anyChar :: done)
        else if c = '^' then readSequence fuel verbose first (.anchor .lineStart :: done)
        else if c = '$' then readSequence fuel verbose first (.anchor .lineEnd :: done)
        else if c = '(' then
          match ← readOpening with
          | .comment => do
            skipComment ')' false (← stepsLeft)
            readSequence fuel verbose first done
          | .backReference => do
            let node ← namedReference
            readSequence fuel verbose first (node :: done)
          | .options c => do
            match ← readFlags c with
            | none =>
              if first && done.isEmpty then do
                let state ← get
                readSequence fuel state.flags.verbose first done
              else malformed
            | some (on, off) => do
              let verbose' := (verbose || on.verbose) && !off.verbose
              let body ← readChoice fuel verbose' false []
              closing
              let node := if on = {} && off = {} then .plain body else .scoped on off body
              readSequence fuel verbose first (node :: done)
          | opening => do
            let node ← readGroup fuel verbose opening
            readSequence fuel verbose first (node :: done)
        else readSequence fuel verbose first (.point c.toNat false :: done)
    | some (.escape c) => do
      let _ ← next
      let node ← escapeNode c
      readSequence fuel verbose first (node :: done)
    | some .dangling => malformed

/-- A group after its opening. -/
def readGroup : (fuel : Nat) → (verbose : Bool) → Opening → Read Node
  | 0, _, _ => malformed
  | fuel + 1, verbose, opening =>
    match opening with
    | .capture name => do
      let index ← openGroup name
      let body ← readChoice fuel verbose false []
      closing
      closeGroup index body
      return .group index body
    | .noCapture => do
      let body ← readChoice fuel verbose false []
      closing
      return .plain body
    | .atomicGroup => do
      let body ← readChoice fuel verbose false []
      closing
      return .atomic body
    | .lookAround behind negated => do
      let outer := (← get).lookbehind
      if behind && outer.isNone then
        modify fun s => { s with lookbehind := some (s.widths.size + 1) }
      let body ← readChoice fuel verbose false []
      modify fun s => { s with lookbehind := outer }
      closing
      return .look (if behind then some 0 else none) negated body
    | .condition => do
      let g ← conditionGroup
      let yes ← readSequence fuel verbose false []
      let no ← if ← take '|' then do
          let no ← readSequence fuel verbose false []
          if (← peek) = some (.char '|') then malformed else pure no
        else pure []
      closing
      return .cond g yes no
    | .comment | .backReference | .options _ => malformed

end

/-! ## Whole patterns -/

mutual

/-- Gives conditions on what stands before the number of characters they look at, which must be
the same however they match. -/
def fixNode (widths : Array (Option Width)) : Node → Except PatternError Node
  | .choice branches => return .choice (← fixBranches widths branches)
  | .loop mode least most body => return .loop mode least most (← fixList widths body)
  | .group i body => return .group i (← fixList widths body)
  | .plain body => return .plain (← fixList widths body)
  | .scoped on off body => return .scoped on off (← fixList widths body)
  | .atomic body => return .atomic (← fixList widths body)
  | .look none negated body => return .look none negated (← fixList widths body)
  | .look (some _) negated body => do
    let (lo, hi) := listWidth widths body
    if lo = hi ∧ lo < Nat.pow 2 32 then return .look (some lo) negated (← fixList widths body)
    else .error .malformed
  | .cond g yes no => return .cond g (← fixList widths yes) (← fixList widths no)
  | n => return n

/-- The same for parts in a row. -/
def fixList (widths : Array (Option Width)) : List Node → Except PatternError (List Node)
  | [] => return []
  | n :: ns => return (← fixNode widths n) :: (← fixList widths ns)

/-- The same for branches. -/
def fixBranches (widths : Array (Option Width)) :
    List (List Node) → Except PatternError (List (List Node))
  | [] => return []
  | b :: bs => return (← fixList widths b) :: (← fixBranches widths bs)

end

/-- Reads a pattern. -/
def read (text : List Char) : Except PatternError Compiled := do
  let all := signs text
  checkNext all
  let (nodes, s) ← (readChoice (2 * all.length + 2) false true []).run { rest := all }
  if !s.rest.isEmpty || s.asked.any (s.widths.size < ·) then .error .malformed
  else return { nodes := ← fixList s.widths nodes, flags := s.flags, groups := s.widths.size }

end FieldRules.Pattern
