/-!
# Ranges of code points

Classes of characters are tables of ranges of code points.
-/

namespace Authorization.Text

/-- Whether a character lies in one of some ranges of code points, both ends included. -/
def inRanges (ranges : List (Nat × Nat)) (c : Char) : Bool :=
  ranges.any fun (first, last) => first ≤ c.val.toNat && c.val.toNat ≤ last

end Authorization.Text
