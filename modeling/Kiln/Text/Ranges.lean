/-!
# Ranges of code points

A property of characters is given by the closed ranges of code points that have
it.  `CodeRanges.holds` looks a character up.
-/

namespace Kiln

/-- Closed ranges of code points, by increasing code point. -/
abbrev CodeRanges := List (Nat × Nat)

/-- Whether a character lies in one of the ranges. -/
def CodeRanges.holds (ranges : CodeRanges) (c : Char) : Bool :=
  ranges.any fun r => r.1 ≤ c.toNat && c.toNat ≤ r.2

end Kiln
