/-!
# Ranges of characters

A class of characters as a list of ranges of code points, both ends included.
-/

namespace ViewGraph

/-- Does one of the ranges hold the character? -/
def inRanges (table : List (Nat × Nat)) (c : Char) : Bool :=
  table.any fun (first, last) => first ≤ c.toNat && c.toNat ≤ last

end ViewGraph
