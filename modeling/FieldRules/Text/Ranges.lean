/-!
# Runs of code points

A set of code points written as its runs, ascending and apart, with membership by halving.
-/

namespace FieldRules.Text

/-- A set of code points: the first and last member of each run, in ascending order. -/
structure Ranges where
  runs : Array (Nat × Nat)
deriving Repr

namespace Ranges

/-- Looks for the run that holds `n` among those from `lo` on and before `hi`, at most `fuel` times
halving what is left. -/
def search (r : Ranges) (n : Nat) : (fuel lo hi : Nat) → Bool
  | 0, _, _ => false
  | fuel + 1, lo, hi =>
    if lo < hi then
      let mid := (lo + hi) / 2
      match r.runs[mid]? with
      | none => false
      | some (first, last) =>
        if n < first then r.search n fuel lo mid
        else if last < n then r.search n fuel (mid + 1) hi
        else true
    else false

/-- Membership of a code point. -/
def contains (r : Ranges) (n : Nat) : Bool := r.search n (r.runs.size + 1) 0 r.runs.size

end Ranges

end FieldRules.Text
