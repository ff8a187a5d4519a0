/-!
Sets of characters as sorted lists of code points at which membership changes: a code point
belongs to the set when an odd number of the listed bounds lie at or below it.  The search halves
the candidate interval.
-/
namespace PlanAssistant.Text

/-- A set of code points, given by the sorted positions where membership switches. -/
structure CharTable where
  bounds : Array Nat

namespace CharTable

/-- How many of the sorted `bounds` with index in `[low, high)` are at most `code`, plus `low`. -/
def countFrom (bounds : Array Nat) (code low high : Nat) : Nat :=
  if h : low < high then
    let middle := (low + high) / 2
    if bounds.getD middle 0 ≤ code then countFrom bounds code (middle + 1) high
    else countFrom bounds code low middle
  else low
termination_by high - low
decreasing_by all_goals omega

def countUpTo (bounds : Array Nat) (code : Nat) : Nat := countFrom bounds code 0 bounds.size

def mem (table : CharTable) (code : Nat) : Bool := countUpTo table.bounds code % 2 == 1

def contains (table : CharTable) (c : Char) : Bool := table.mem c.toNat

/-- The first code point of the run of members that `code` lies in. -/
def runStart (table : CharTable) (code : Nat) : Nat :=
  table.bounds.getD (countUpTo table.bounds code - 1) 0

end CharTable
end PlanAssistant.Text
