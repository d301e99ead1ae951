/-!
# Classes of code points given by runs

A class of code points is written as the lengths of its alternating runs: first the code points
outside, then those inside, and so on. Beyond the last run every code point is outside.
-/

namespace Shellbox.Text

/-- Looks a code point up in alternating runs; `inside` is the side of the first run. -/
def inRunsFrom (inside : Bool) : List Nat → Nat → Bool
  | [], _ => false
  | k :: r, n => if n < k then inside else inRunsFrom (!inside) r (n - k)

/-- The code point lies in the class that the runs describe. -/
def inRuns (runs : List Nat) (n : Nat) : Bool := inRunsFrom false runs n

end Shellbox.Text
