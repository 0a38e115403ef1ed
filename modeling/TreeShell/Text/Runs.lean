/-!
# Classes of characters as runs

A class of characters is written as the lengths of its runs: so many code points outside it, then
so many inside, and so on from 0 upward. What lies after the last run is outside.

* `inRuns`: membership.
-/

namespace TreeShell.Text

/-- Whether the code point `n` lies inside, where the first run is inside iff `inside`. -/
def inRunsFrom : Bool → List Nat → Nat → Bool
  | _, [], _ => false
  | inside, r :: rs, n => if n < r then inside else inRunsFrom (!inside) rs (n - r)

/-- Membership in the class with these runs. -/
def inRuns (runs : List Nat) (c : Char) : Bool :=
  inRunsFrom false runs c.toNat

end TreeShell.Text
