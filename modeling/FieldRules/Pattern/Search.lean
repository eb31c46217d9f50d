import FieldRules.Pattern.CharSet

/-!
# Searching for a pattern

Whether a pattern matches somewhere in a text. Every part of a pattern denotes a `Matcher`: given
what is to be matched after it, the `Goal`, it goes through the ways in which it can match at a
place, in order of preference, and gives the first after which the goal is met. So the parts one
after the other are the matchers one inside the other, and a repetition is a bounded iteration of
the matcher of its body: every round but the last has to move on in the text.
-/

namespace FieldRules.Pattern

/-- Where a group was last entered and where it was last left. -/
structure Span where
  start : Option Nat := none
  stop : Option Nat := none
deriving Repr, DecidableEq, Inhabited

/-- A place in a text, and the spans of the groups so far; the first span is that of group one. -/
structure Cursor where
  pos : Nat
  spans : Array Span
deriving Repr, DecidableEq

/-- What is to be matched from a cursor on. -/
abbrev Goal := Cursor → Option Cursor

/-- The ways to match a part of a pattern before a goal. -/
abbrev Matcher := Goal → Goal

namespace Cursor

/-- Notes that a group is entered here. -/
def enter (s : Cursor) (group : Nat) : Cursor :=
  { s with spans := s.spans.modify (group - 1) fun g => { g with start := some s.pos } }

/-- Notes that a group is left here. -/
def leave (s : Cursor) (group : Nat) : Cursor :=
  { s with spans := s.spans.modify (group - 1) fun g => { g with stop := some s.pos } }

/-- What a group matched: it was left, and no earlier than where it was last entered. -/
def span? (s : Cursor) (group : Nat) : Option (Nat × Nat) :=
  match s.spans[group - 1]? with
  | some ⟨some start, some stop⟩ => if start ≤ stop then some (start, stop) else none
  | _ => none

end Cursor

/-! ## Characters and places -/

/-- One character of a kind. -/
def oneChar (text : Array Char) (p : Char → Bool) : Matcher := fun goal s =>
  match text[s.pos]? with
  | some c => if p c then goal { s with pos := s.pos + 1 } else none
  | none => none

/-- The character before a place is a line feed. -/
def afterNewline (text : Array Char) (pos : Nat) : Bool :=
  0 < pos && text[pos - 1]? == some '\n'

/-- A character is a word character under the options. -/
def isWordAt (text : Array Char) (f : Flags) (pos : Nat) : Bool :=
  match text[pos]? with
  | some c => inKind f .word c.toNat
  | none => false

/-- The characters on the two sides of a place are a word character and another, or an end. -/
def atBoundary (text : Array Char) (f : Flags) (pos : Nat) : Bool :=
  (0 < pos && isWordAt text f (pos - 1)) != isWordAt text f pos

/-- A condition on a place. An empty text has no place that is a word boundary and none that is no
word boundary. -/
def holdsAt (text : Array Char) (f : Flags) (pos : Nat) : Anchor → Bool
  | .textStart => pos == 0
  | .textEnd => pos == text.size
  | .lineStart => pos == 0 || (f.multiline && afterNewline text pos)
  | .lineEnd =>
    pos == text.size
      || (text[pos]? == some '\n' && (f.multiline || pos + 1 == text.size))
  | .boundary => !text.isEmpty && atBoundary text f pos
  | .notBoundary => !text.isEmpty && !atBoundary text f pos

/-- Two characters are the same for a back reference. -/
def sameChar (f : Flags) (a b : Char) : Bool :=
  if f.ignoreCase then lowerUnder f a.toNat == lowerUnder f b.toNat else a == b

/-- The characters of a span stand at a place again. -/
def repeatsAt (text : Array Char) (f : Flags) (span : Nat × Nat) (pos : Nat) : Bool :=
  let length := span.2 - span.1
  pos + length ≤ text.size && (List.range length).all fun i =>
    match text[span.1 + i]?, text[pos + i]? with
    | some a, some b => sameChar f a b
    | _, _ => false

/-! ## Repetition -/

/-- A matcher so many times in a row. -/
def times (m : Matcher) : Nat → Matcher
  | 0, goal => goal
  | n + 1, goal => m (times m n goal)

/-- At most so many more times; none for no limit. -/
abbrev Limit := Option Nat

/-- The limit after one more time. -/
def Limit.less (l : Limit) : Limit := l.map (· - 1)

/-- A matcher as often as possible and then the goal; `rounds` is larger than the number of
characters that are left. A round that does not move on is the last. -/
def greedily (m : Matcher) (goal : Goal) : (rounds : Nat) → Limit → Goal
  | 0, _, s => goal s
  | rounds + 1, limit, s =>
    if limit = some 0 then goal s
    else
      let further : Goal := fun s' =>
        if s.pos < s'.pos then greedily m goal rounds limit.less s' else goal s'
      (m further s).orElse fun _ => goal s

/-- A matcher as seldom as possible before the goal. -/
def lazily (m : Matcher) (goal : Goal) : (rounds : Nat) → Limit → Goal
  | 0, _, s => goal s
  | rounds + 1, limit, s =>
    (goal s).orElse fun _ =>
      if limit = some 0 then none
      else
        m (fun s' => if s.pos < s'.pos then lazily m goal rounds limit.less s' else goal s') s

/-- A matcher as often as possible, each time in its first way. -/
def possessively (m : Matcher) : (rounds : Nat) → Limit → Cursor → Cursor
  | 0, _, s => s
  | rounds + 1, limit, s =>
    if limit = some 0 then s
    else match m some s with
      | none => s
      | some s' => if s.pos < s'.pos then possessively m rounds limit.less s' else s'

/-- A matcher in its first way and no other. -/
def firstWay (m : Matcher) : Matcher := fun goal s => (m some s).bind goal

/-- A repetition of a matcher: the least number of times, then more of them. -/
def repeated (text : Array Char) (mode : Mode) (least : Nat) (most : Limit) (m : Matcher) :
    Matcher := fun goal s =>
  let limit : Limit := most.map (· - least)
  let rounds (s : Cursor) : Nat := text.size - s.pos + 1
  match mode with
  | .greedy => times m least (fun s => greedily m goal (rounds s) limit s) s
  | .lazy => times m least (fun s => lazily m goal (rounds s) limit s) s
  | .possessive => times (firstWay m) least (fun s => goal (possessively m (rounds s) limit s)) s

/-! ## Conditions -/

/-- A condition on the text at or before a place, whose groups are kept when it holds. A condition
on what stands before looks back a fixed number of characters. -/
def lookAround (behind : Option Nat) (negated : Bool) (m : Matcher) : Matcher := fun goal s =>
  let width := behind.getD 0
  let found := if s.pos < width then none else m some { s with pos := s.pos - width }
  if negated then (if found.isSome then none else goal s)
  else found.bind fun s' => goal { s' with pos := s.pos }

/-! ## Parts of a pattern -/

mutual

/-- The matcher of one part. -/
def matchNode (text : Array Char) (f : Flags) : Node → Matcher
  | .point n negated => oneChar text fun c => matchesPoint f n c != negated
  | .anyChar => oneChar text fun c => f.dotAll || c != '\n'
  | .set negated items => oneChar text (matchesSet f negated items)
  | .anchor a => fun goal s => if holdsAt text f s.pos a then goal s else none
  | .choice branches => matchChoice text f branches
  | .loop mode least most body => repeated text mode least most (matchList text f body)
  | .group index body => fun goal s =>
    matchList text f body (fun s => goal (s.leave index)) (s.enter index)
  | .plain body => matchList text f body
  | .scoped on off body => matchList text (f.change on off) body
  | .atomic body => firstWay (matchList text f body)
  | .look behind negated body => lookAround behind negated (matchList text f body)
  | .again group => fun goal s =>
    match s.span? group with
    | some span =>
      if repeatsAt text f span s.pos then goal { s with pos := s.pos + (span.2 - span.1) }
      else none
    | none => none
  | .cond group yes no => fun goal s =>
    if (s.span? group).isSome then matchList text f yes goal s else matchList text f no goal s

/-- The matcher of parts one after the other. -/
def matchList (text : Array Char) (f : Flags) : List Node → Matcher
  | [] => fun goal => goal
  | n :: ns => fun goal => matchNode text f n (matchList text f ns goal)

/-- The matcher of branches, the earlier ones first. -/
def matchChoice (text : Array Char) (f : Flags) : List (List Node) → Matcher
  | [] => fun _ _ => none
  | b :: bs => fun goal s =>
    (matchList text f b goal s).orElse fun _ => matchChoice text f bs goal s

end

/-- A pattern matches at a place of a text. -/
def Compiled.matchesAt (p : Compiled) (text : Array Char) (pos : Nat) : Bool :=
  (matchList text p.flags p.nodes some ⟨pos, Array.replicate p.groups {}⟩).isSome

/-- A pattern matches at the start of a text. -/
def Compiled.matchesStart (p : Compiled) (text : List Char) : Bool := p.matchesAt text.toArray 0

/-- A pattern matches somewhere in a text. -/
def Compiled.search (p : Compiled) (text : List Char) : Bool :=
  (List.range (text.length + 1)).any (p.matchesAt text.toArray)

end FieldRules.Pattern
