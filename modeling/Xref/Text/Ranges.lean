/-!
# Ranges of characters

A property of characters, held as the closed ranges of code points that have it. The tables are
those of Unicode 17.
-/

namespace Xref.Text

def inRanges (ranges : List (Nat × Nat)) (c : Char) : Bool :=
  ranges.any fun (first, last) => first ≤ c.toNat && c.toNat ≤ last

end Xref.Text
