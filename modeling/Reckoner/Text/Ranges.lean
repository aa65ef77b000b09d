/-!
Code point ranges.

A property of characters is kept as a list of closed code point ranges in
ascending order. `inRanges` looks a code point up and stops at the first range
that starts above it, so common characters are decided early.
-/

namespace Reckoner.Text

/-- Whether a code point lies in one of the ascending closed ranges. -/
def inRanges : List (Nat × Nat) → Nat → Bool
  | [], _ => false
  | (first, last) :: rest, n => if n < first then false else n ≤ last || inRanges rest n

end Reckoner.Text
