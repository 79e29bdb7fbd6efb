/-!
# Ranges of code points

A set of characters is given by closed ranges of code points.
-/

namespace AccessBridge.Text

/-- Closed ranges of code points, each by its first and its last. -/
abbrev Ranges := List (Nat × Nat)

/-- Whether a character lies in one of the ranges. -/
def Ranges.covers (ranges : Ranges) (c : Char) : Bool :=
  ranges.any fun (first, last) => first ≤ c.toNat && c.toNat ≤ last

end AccessBridge.Text
