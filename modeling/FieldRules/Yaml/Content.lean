import FieldRules.Number.Reading
import FieldRules.Text.Base64
import FieldRules.Value.Key
import FieldRules.Yaml.Layout
import FieldRules.Yaml.Node

/-!
# The content of a document

The value that a document stands for. A node whose text does not fit its tag is a fault. When there
are several, the one that counts is the one that lies least deep, and of those as deep the first.
-/

namespace FieldRules.Yaml

open FieldRules.Text

/-! ## Scalars -/

/-- A value, or the fault of a text that does not stand for one. -/
abbrev Read? (α : Type) := Except ReadFault α

/-- A number, or the fault of a text that is none. -/
def numberOr {α : Type} (n : Option α) : Read? α := n.elim (.error .notANumber) .ok

/-- The letter that marks a base after a zero. -/
def baseLetters (base : Nat) : List Char :=
  if base = 2 then ['b', 'B'] else if base = 8 then ['o', 'O'] else ['x', 'X']

/-- A number without the mark of its base. -/
def dropBaseMark (base : Nat) : List Char → List Char
  | '0' :: c :: s => if (baseLetters base).contains c then s else '0' :: c :: s
  | s => s

/-- Reads a whole number in base two, eight or sixteen. -/
def readIntIn? (base : Nat) (s : List Char) : Option Int :=
  let (negative, body) := Number.takeSign (trimBy isNumberBlank (Number.asciiDigits s))
  let digits := dropBaseMark base body
  if digits.isEmpty || !digits.all (fun c => isHexDigit c && hexValue c < base) then none
  else
    let n : Int := numberIn base digits
    some (if negative then -n else n)

/-- The whole number that parts between colons write in base sixty. -/
def sexagesimalInt (s : List Char) : Read? Int := do
  let parts ← (s.splitOn ':').mapM fun p => numberOr (Number.readInt? p)
  return parts.foldl (fun n p => 60 * n + p) 0

/-- The whole number that a text without low lines and sign writes. -/
def unsignedInt (s : List Char) : Read? Int :=
  match s with
  | [] => .error .emptyNumber
  | '0' :: 'b' :: ds => numberOr (readIntIn? 2 ds)
  | '0' :: 'x' :: ds => numberOr (readIntIn? 16 ds)
  | '0' :: _ => numberOr (readIntIn? 8 s)
  | _ => if s.contains ':' then sexagesimalInt s else numberOr (Number.readInt? s)

/-- The whole number that a text writes. -/
def readInt (s : List Char) : Read? Int := do
  let (negative, body) := Number.takeSign (s.filter (· != '_'))
  let n ← unsignedInt body
  return if negative then -n else n

/-- Adds up parts from the last on, each worth sixty times the one after it. What a part is worth must
be a float. -/
def sumSexagesimal (base : Int) (sum : Float) : List Float → Read? Float
  | [] => .ok sum
  | p :: ps => match Number.ofInt? base with
    | none => .error .numberTooLarge
    | some b => sumSexagesimal (base * 60) (sum + p * b) ps

/-- The number with a fraction that a text without low lines and sign writes. -/
def unsignedFloat (s : List Char) : Read? Float :=
  if s = ".inf".toList then .ok (Number.infinity false)
  else if s = ".nan".toList then .ok (0.0 / 0.0)
  else if s.contains ':' then do
    let parts ← (s.splitOn ':').mapM fun p => numberOr (Number.readFloat? p)
    sumSexagesimal 1 0 parts.reverse
  else numberOr (Number.readFloat? s)

/-- The number with a fraction that a text writes. -/
def readFloat (s : List Char) : Read? Float :=
  match (s.filter (· != '_')).map Char.toLower with
  | [] => .error .emptyNumber
  | s => do
    let (negative, body) := Number.takeSign s
    let x ← unsignedFloat body
    return if negative then -x else x

/-- The truth value that a word stands for, in any case of its letters. -/
def readBool (text : String) : Read? Bool :=
  let word := text.toLower
  if trueWords.contains word then .ok true
  else if falseWords.contains word then .ok false
  else .error .unknownWord

/-- Millionths of a second from the digits of a fraction. -/
def microseconds (fraction : List Char) : Nat :=
  let six := fraction.take 6
  numberIn 10 (six ++ List.replicate (6 - six.length) '0')

/-- The distance from universal time in minutes, which is less than a day. -/
def zoneOffset : Option (Option (Bool × Nat × Nat)) → Read? (Option Int)
  | none => .ok none
  | some none => .ok (some 0)
  | some (some (negative, hours, minutes)) =>
    let n : Int := hours * 60 + minutes
    if n < 1440 then .ok (some (if negative then -n else n)) else .error .impossibleDate

/-- The date or the moment that a text writes. -/
def readTimestamp (s : List Char) : Read? Value :=
  match readStamp? s with
  | none => .error .missingPart
  | some stamp => do
    let offset ← zoneOffset stamp.zone
    match Date.of? stamp.year stamp.month stamp.day, stamp.clock with
    | none, _ => .error .impossibleDate
    | some date, none => return .date date
    | some date, some (hour, minute, second, fraction) =>
      if hour < 24 ∧ minute < 60 ∧ second < 60 then
        return .moment { date, hour, minute, second, micro := microseconds fraction, offset }
      else .error .impossibleDate

/-- The bytes that a text writes in base 64; it must be ASCII. -/
def readBinary (s : List Char) : Read? Bytes :=
  if s.all fun c => c.val < 128 then (decodeBase64? s).elim (.error .malformed) .ok
  else .error .malformed

mutual

/-- The text of a node that is used as a scalar: its own, or that of the value which a mapping
gives under the key for it. -/
def scalarText : Node → Read? String
  | .scalar _ text => .ok text
  | .sequence _ _ | .inside _ => .error .malformed
  | .mapping _ entries => valueText entries

/-- The text of the value that entries give under the key for it. -/
def valueText : List (Node × Node) → Read? String
  | [] => .error .malformed
  | (k, v) :: rest => if k.tag = .value then scalarText v else valueText rest

end

/-! ## Mappings -/

mutual

/-- The entries of a mapping after those of the mappings that it merges in, which come first. -/
def mergedEntries : List (Node × Node) → Read? (List (Node × Node) × List (Node × Node))
  | [] => .ok ([], [])
  | (k, v) :: rest => do
    if k.tag = .merge then
      let here ← mergedFrom v
      let (merged, own) ← mergedEntries rest
      return (here ++ merged, own)
    else
      let (merged, own) ← mergedEntries rest
      let k := match k with
        | .scalar .value text => .scalar .str text
        | k => k
      return (merged, (k, v) :: own)

/-- The entries that a mapping, or a sequence of mappings, gives to be merged in. Of the mappings
of a sequence the later come first, so that the earlier win. -/
def mergedFrom : Node → Read? (List (Node × Node))
  | .mapping _ entries => do
    let (merged, own) ← mergedEntries entries
    return merged ++ own
  | .sequence _ items => mergedFromAll items
  | .scalar _ _ | .inside _ => .error .malformed

/-- The entries of mappings, those of the later first. -/
def mergedFromAll : List Node → Read? (List (Node × Node))
  | [] => .ok []
  | .mapping _ entries :: rest => do
    let (merged, own) ← mergedEntries entries
    let later ← mergedFromAll rest
    return later ++ (merged ++ own)
  | _ :: _ => .error .malformed

end

/-! ## Values -/

/-- A fault with the depth at which it lies. -/
structure Misfit where
  depth : Nat
  fault : ReadFault
deriving Repr

/-- Something made of parts of a document. -/
abbrev Built (α : Type) := Except Misfit α

/-- Puts two parts together. Of two misfits the less deep one counts, and the first of two as
deep. -/
def both {α β γ : Type} (f : α → β → γ) : Built α → Built β → Built γ
  | .ok a, .ok b => .ok (f a b)
  | .error m, .ok _ => .error m
  | .ok _, .error n => .error n
  | .error m, .error n => .error (if n.depth < m.depth then n else m)

/-- A misfit at a depth. -/
def misfit {α : Type} (depth : Nat) (fault : ReadFault) : Built α := .error ⟨depth, fault⟩

/-- Something that lies at a depth. -/
def atDepth {α : Type} (depth : Nat) (r : Read? α) : Built α := r.mapError fun f => ⟨depth, f⟩

/-- A node of this kind is no key, whatever it holds. -/
def Tag.isCollection : Tag → Bool
  | .seq | .map | .set | .omap | .pairs => true
  | _ => false

mutual

/-- The height of a node. -/
def Node.height : Node → Nat
  | .scalar _ _ | .inside _ => 1
  | .sequence _ items => itemsHeight items + 1
  | .mapping _ entries => entriesHeight entries + 1

/-- The greatest height of some nodes. -/
def itemsHeight : List Node → Nat
  | [] => 0
  | n :: ns => Nat.max n.height (itemsHeight ns)

/-- The greatest height of the nodes of some entries. -/
def entriesHeight : List (Node × Node) → Nat
  | [] => 0
  | (k, v) :: rest => Nat.max (Nat.max k.height v.height) (entriesHeight rest)

end

/-- The value of a scalar. -/
def scalarValue (tag : Tag) (text : String) : Read? Value :=
  match tag with
  | .null => .ok .null
  | .bool => (readBool text).map .bool
  | .int => (readInt text.toList).map .int
  | .float => (readFloat text.toList).map .float
  | .binary => (readBinary text.toList).map .bytes
  | .timestamp => readTimestamp text.toList
  | .str => .ok (.text text)
  | _ => .error .malformed

/-- The value of a node that is used as a scalar. A date is only read from a text of the node's own. -/
def soleValue (n : Node) : Read? Value := do
  let text ← scalarText n
  match n with
  | .mapping .timestamp _ => .error .wrongKind
  | _ => scalarValue n.tag text

mutual

/-- The value of a node. `rounds` is at least the height of the node. -/
def valueOf : (rounds depth : Nat) → Node → Built Value
  | 0, depth, _ => misfit depth .malformed
  | rounds + 1, depth, node =>
    match node.tag, node with
    | .seq, .sequence _ items => (itemValues rounds (depth + 1) items).map .list
    | .map, .mapping _ entries => (entryValues rounds (depth + 1) entries).map Value.dictOf
    | .set, .mapping _ entries =>
      (entryValues rounds (depth + 1) entries).map fun es => .set (Value.setMembers (es.map (·.1)))
    | .omap, .sequence _ items => (pairValues rounds (depth + 1) items).map .list
    | .pairs, .sequence _ items => (pairValues rounds (depth + 1) items).map .list
    | tag, node =>
      if tag.isCollection then misfit (depth + 1) .malformed else atDepth depth (soleValue node)

/-- The values of items. -/
def itemValues : (rounds depth : Nat) → List Node → Built (List Value)
  | 0, depth, _ => misfit depth .malformed
  | rounds + 1, depth, items =>
    items.foldr (fun n rest => both List.cons (valueOf rounds depth n) rest) (.ok [])

/-- The keys and values of entries. -/
def entryValues : (rounds depth : Nat) → List (Node × Node) → Built (List (Value × Value))
  | 0, depth, _ => misfit depth .malformed
  | rounds + 1, depth, entries =>
    match mergedEntries entries with
    | .error f => misfit depth f
    | .ok (merged, own) =>
      let entry (e : Node × Node) : Built (Value × Value) :=
        let key := if e.1.tag.isCollection then misfit depth .malformed
          else valueOf rounds depth e.1
        both Prod.mk key (valueOf rounds depth e.2)
      (merged ++ own).foldr (fun e rest => both List.cons (entry e) rest) (.ok [])

/-- The pairs of mappings of one entry each. -/
def pairValues : (rounds depth : Nat) → List Node → Built (List Value)
  | 0, depth, _ => misfit depth .malformed
  | rounds + 1, depth, items =>
    let pair : Node → Built Value := fun
      | .mapping _ [(k, v)] =>
        both (fun k v => .tuple [k, v]) (valueOf rounds depth k) (valueOf rounds depth v)
      | _ => misfit depth .malformed
    items.foldr (fun n rest => both List.cons (pair n) rest) (.ok [])

end

/-- The value of the document that a text holds; a text without a document holds nothing. Nodes may lie
in one another to any depth. -/
def read (text : List Char) : Except ReadFault Value := do
  match ← Node.ofTokens? (tokensOf text) with
  | none => return .null
  | some root => (valueOf (2 * root.height) 0 root).mapError Misfit.fault

end FieldRules.Yaml
