/-!
# Tables of code point ranges

A property of characters is a sorted table of inclusive ranges of code points. Membership is a
binary search, so that a table of many hundred ranges costs about ten comparisons.
-/

namespace ScriptBridge.Text

/-- Inclusive ranges of code points in increasing order. -/
abbrev Ranges := Array (Nat × Nat)

namespace Ranges

/-- Looks for `code` among the ranges at positions `lo` to `hi - 1`; `steps` bounds the search. -/
def search (table : Ranges) (code : Nat) : (steps lo hi : Nat) → Bool
  | 0, _, _ => false
  | steps + 1, lo, hi =>
    if lo < hi then
      let middle := (lo + hi) / 2
      match table[middle]? with
      | none => false
      | some (first, last) =>
        if code < first then search table code steps lo middle
        else if last < code then search table code steps (middle + 1) hi
        else true
    else false

/-- Whether `code` lies in one of the ranges. -/
def contains (table : Ranges) (code : Nat) : Bool :=
  search table code (table.size + 1) 0 table.size

end Ranges
end ScriptBridge.Text
