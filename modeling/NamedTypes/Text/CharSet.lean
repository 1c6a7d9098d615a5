/-! # Sets of characters
A **character set** (`CharSet`) lists the numbers of its characters as closed ranges. -/

namespace NamedTypes.Text

/-- A set of characters. -/
structure CharSet where
  /-- The first and the last number of every range. -/
  ranges : List (Nat × Nat)

namespace CharSet

/-- Whether a character is in a set. -/
def contains (s : CharSet) (c : Char) : Bool :=
  s.ranges.any fun r => r.1 ≤ c.toNat && c.toNat ≤ r.2

end CharSet

end NamedTypes.Text
