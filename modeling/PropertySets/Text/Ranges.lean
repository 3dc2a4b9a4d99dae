/-!
# Tables of code points

A property of characters is kept as a list of closed ranges, or of runs that step over every other
code point where a script alternates capital and small letters. The tables follow Unicode 17, that
of decimal digits Unicode 16.
-/

namespace PropertySets.Text

/-- Is the character in one of the closed ranges? -/
def inRanges (table : List (Nat × Nat)) (c : Char) : Bool :=
  table.any fun r => decide (r.1 ≤ c.toNat) && decide (c.toNat ≤ r.2)

/-- Is the code point one of `first, first + step, …, last`? -/
def inRun (run : Nat × Nat × Nat) (n : Nat) : Bool :=
  decide (run.1 ≤ n) && decide (n ≤ run.2.1) && (n - run.1) % run.2.2 == 0

/-- Is the character in one of the runs? -/
def inRuns (table : List (Nat × Nat × Nat)) (c : Char) : Bool :=
  table.any fun r => inRun r c.toNat

end PropertySets.Text
