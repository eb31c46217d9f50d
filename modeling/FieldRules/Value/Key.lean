import FieldRules.Value

/-!
# Keys

Values that can be the key of a dictionary or the member of a set, taken up to the equality that
keys have: truth values count as the numbers one and zero, and a float without a fraction as the
whole number.
-/

namespace FieldRules

/-- A key up to equality of keys. -/
inductive Key where
  | null
  | whole (n : Int)
  /-- A float with a fraction, or an infinity, by its bits. -/
  | real (bits : UInt64)
  | text (s : String)
  | bytes (bs : Bytes)
  | date (d : Date)
  | moment (m : Moment)
deriving Repr, DecidableEq, Inhabited

namespace Value

/-- The key of a float. -/
def floatKey (x : Float) : Key :=
  match Number.truncate? x with
  | none => .real x.toBits
  | some n => if Number.intEqFloat n x then .whole n else .real x.toBits

/-- The key that a value is; collections and uploads are no keys. -/
def key? : Value → Option Key
  | null => some .null
  | bool b => some (.whole (if b then 1 else 0))
  | int n => some (.whole n)
  | float x => some (floatKey x)
  | text s => some (.text s)
  | bytes bs => some (.bytes bs)
  | date d => some (.date d)
  | moment m => some (.moment m)
  | list _ | tuple _ | set _ | frozenset _ | dict _ | file _ => none

/-- A value with a key; for the key of a truth value, the number that it equals. -/
def ofKey : Key → Value
  | .null => null
  | .whole n => int n
  | .real bits => float (Float.ofBits bits)
  | .text s => text s
  | .bytes bs => bytes bs
  | .date d => date d
  | .moment m => moment m

/-- Two values are the same key. -/
def sameKey (a b : Value) : Bool :=
  match a.key?, b.key? with
  | some j, some k => j == k
  | _, _ => false

/-- Puts an entry into a dictionary. An entry with the same key keeps its place and its key and
takes the new value. -/
def insertEntry (entries : List (Value × Value)) (k v : Value) : List (Value × Value) :=
  if entries.any fun e => e.1.sameKey k then
    entries.map fun e => if e.1.sameKey k then (e.1, v) else e
  else entries ++ [(k, v)]

/-- A dictionary from its entries, of which the last with a key counts. -/
def dictOf (entries : List (Value × Value)) : Value :=
  dict (entries.foldl (fun d e => insertEntry d e.1 e.2) [])

/-- The members of a set from a list: the first of those that are the same key. Whole numbers alone
are put in ascending order. -/
def setMembers (vs : List Value) : List Value :=
  let distinct := vs.foldl (fun ms v => if ms.any (sameKey v) then ms else ms ++ [v]) []
  let whole? : Value → Option Int := fun
    | int n => some n
    | _ => none
  match distinct.mapM whole? with
  | some ns => (ns.mergeSort (· ≤ ·)).map int
  | none => distinct

/-- The value that a dictionary holds for a text key. -/
def lookupText (entries : List (Value × Value)) (name : String) : Option Value :=
  (entries.find? fun e => e.1.sameKey (text name)).map (·.2)

end Value

end FieldRules
