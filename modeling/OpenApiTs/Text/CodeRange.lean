/-!
# Ranges of code points

A set of characters given by inclusive ranges of code points.

## Main definitions

* `Text.inRanges`: membership in a list of ranges.
-/

namespace OpenApiTs.Text

/-- Whether a code point lies in one of the ranges. -/
def inRanges (ranges : List (Nat × Nat)) (n : Nat) : Bool :=
  ranges.any fun (low, high) => low ≤ n && n ≤ high

end OpenApiTs.Text
