/-!
# Sets of code points

A property of characters that the Unicode character database lists is held as a list of closed
ranges of code points.

## Main definitions

* `Text.inRanges`: the characters of a list of ranges.
-/

namespace RosInterface.Text

/-- The character lies in one of the closed ranges of code points. -/
def inRanges (ranges : List (Nat × Nat)) (c : Char) : Bool :=
  ranges.any fun range => range.1 ≤ c.toNat && c.toNat ≤ range.2

end RosInterface.Text
