/-!
# Patterns

The pattern language in which the form of a text can be described: characters and classes of them,
repetition, alternatives, groups that remember what they matched, and conditions on what stands
around. Characters are given by code point, because a pattern may name code points that no text
holds.
-/

namespace FieldRules.Pattern

/-- A class of characters with a name of its own. -/
inductive CharKind where
  | digit
  | space
  | word
deriving Repr, DecidableEq

/-- A member of a set of characters. -/
inductive SetItem where
  | point (n : Nat)
  | range (first last : Nat)
  | kind (k : CharKind) (negated : Bool)
deriving Repr, DecidableEq

/-- A condition on a place in a text. -/
inductive Anchor where
  /-- The start of the text, or of a line when lines count. -/
  | lineStart
  /-- The end of the text, also before a final line feed, or the end of a line when lines count. -/
  | lineEnd
  | textStart
  | textEnd
  /-- Between a word character and something else. -/
  | boundary
  | notBoundary
deriving Repr, DecidableEq

/-- How a repetition goes about it. -/
inductive Mode where
  /-- As often as possible first. -/
  | greedy
  /-- As seldom as possible first. -/
  | lazy
  /-- As often as possible and no other way. -/
  | possessive
deriving Repr, DecidableEq

/-- The options that change what a pattern means. -/
structure Flags where
  ignoreCase : Bool := false
  multiline : Bool := false
  dotAll : Bool := false
  /-- White space and comments in the pattern do not count. -/
  verbose : Bool := false
  /-- Classes and case know ASCII alone. -/
  ascii : Bool := false
  /-- Classes and case know all scripts, as they do anyway. -/
  unicode : Bool := false
deriving Repr, DecidableEq

/-- Options turned on, then options turned off. Turning on one of `ascii` and `unicode` turns off
the other. -/
def Flags.change (f on off : Flags) : Flags where
  ignoreCase := (f.ignoreCase || on.ignoreCase) && !off.ignoreCase
  multiline := (f.multiline || on.multiline) && !off.multiline
  dotAll := (f.dotAll || on.dotAll) && !off.dotAll
  verbose := (f.verbose || on.verbose) && !off.verbose
  ascii := if on.ascii || on.unicode then on.ascii else f.ascii
  unicode := if on.ascii || on.unicode then on.unicode else f.unicode

/-- A part of a pattern; a pattern is a list of parts, matched one after the other. -/
inductive Node where
  | point (n : Nat) (negated : Bool)
  | anyChar
  | set (negated : Bool) (items : List SetItem)
  | anchor (a : Anchor)
  | choice (branches : List (List Node))
  | loop (mode : Mode) (least : Nat) (most : Option Nat) (body : List Node)
  /-- A group that remembers what it matched. -/
  | group (index : Nat) (body : List Node)
  /-- A group that does not. -/
  | plain (body : List Node)
  /-- A group with options of its own. -/
  | scoped (on off : Flags) (body : List Node)
  /-- A group that is matched in the first way that works and in no other. -/
  | atomic (body : List Node)
  /-- A condition on what follows, or on the given number of characters before. -/
  | look (behind : Option Nat) (negated : Bool) (body : List Node)
  /-- What a group matched, again. -/
  | again (group : Nat)
  /-- One of two ways on, by whether a group matched. -/
  | cond (group : Nat) (yes no : List Node)
deriving Repr, Inhabited

/-- A pattern that was read: its parts, its options and the number of its groups. -/
structure Compiled where
  nodes : List Node
  flags : Flags
  groups : Nat
deriving Repr

/-- Why a text is no pattern. -/
inductive PatternError where
  | malformed
  /-- A number of repetitions is too large. -/
  | tooManyTimes
deriving Repr, DecidableEq

/-- A number of repetitions has to be below this one. -/
def repetitionLimit : Nat := 4294967295

end FieldRules.Pattern
