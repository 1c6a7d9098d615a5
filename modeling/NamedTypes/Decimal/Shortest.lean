/-! # Shortest decimals
The shortest decimal that reads back as a given double. A finite double is
`significand * 2 ^ exponent` (`Binary`); the reals that round to it form an interval
(`Binary.Spans`), whose ends belong to it iff the significand is even. `Binary.shortest` looks for a
point of the decimal grids in that interval, the coarsest grid first; of two points the nearer one
is taken, and of two equally near ones the even one. -/

namespace NamedTypes.Decimal

/-- The number `significand * 2 ^ exponent`. -/
structure Binary where
  /-- The significand, below `2 ^ 53`. -/
  significand : Nat
  /-- The power of two. -/
  exponent : Int
deriving DecidableEq, Repr

/-- The number `digits * 10 ^ exponent`. -/
structure Rounded where
  /-- The digits, as one number. -/
  digits : Nat
  /-- The power of ten. -/
  exponent : Int
deriving DecidableEq, Repr

/-- The least significand of a double that is not one of the smallest: 53 bits, of which the first
is not stored. -/
def leastNormal : Nat := Nat.pow 2 52

/-- A double without its sign. Its bits are the sign, eleven bits for the exponent, and the stored
bits of the significand. -/
def Binary.ofFloat (f : Float) : Binary :=
  let bits := f.toBits.toNat
  let stored := bits % leastNormal
  let biased : Nat := bits / leastNormal % 2048
  if biased = 0 then ⟨stored, -1074⟩ else ⟨leastNormal + stored, (biased : Int) - 1075⟩

/-- Whether a double carries a minus sign. -/
def isNegative (f : Float) : Bool := f.toBits.toNat / leastNormal / 2048 == 1

namespace Binary

/-- The distance between neighbouring points on which an interval is measured, as numerator and
denominator: a quarter of a unit in the last place. -/
def quarter (b : Binary) : Nat × Nat :=
  (Nat.pow 2 (b.exponent - 2).toNat, Nat.pow 2 (2 - b.exponent).toNat)

/-- The lower end of the interval in quarters. Below a power of two the doubles lie twice as close,
unless they are the smallest ones. -/
def low (b : Binary) : Nat :=
  if b.significand = leastNormal ∧ b.exponent ≠ -1074 then 4 * b.significand - 1
  else 4 * b.significand - 2

/-- The upper end of the interval in quarters. -/
def high (b : Binary) : Nat := 4 * b.significand + 2

/-- Both sides of a comparison between `n * 10 ^ k` and `m` quarters, without fractions. -/
def compared (b : Binary) (k : Int) (n m : Nat) : Nat × Nat :=
  (n * Nat.pow 10 k.toNat * b.quarter.2, m * b.quarter.1 * Nat.pow 10 (-k).toNat)

/-- Whether `n * 10 ^ k` rounds to the given double. -/
def Spans (b : Binary) (k : Int) (n : Nat) : Prop :=
  let (x, low) := b.compared k n b.low
  let (y, high) := b.compared k n b.high
  if b.significand % 2 = 0 then low ≤ x ∧ y ≤ high else low < x ∧ y < high

instance (b : Binary) (k : Int) (n : Nat) : Decidable (b.Spans k n) := by
  unfold Spans; infer_instance

/-- The greatest `n` with `n * 10 ^ k` not above the double. -/
def floorOn (b : Binary) (k : Int) : Nat :=
  let (unit, value) := b.compared k 1 (4 * b.significand)
  value / unit

/-- Whether `n * 10 ^ k` is nearer to the double than `(n + 1) * 10 ^ k`, for a double between the
two; of equally near ones the even `n` is. -/
def prefersLower (b : Binary) (k : Int) (n : Nat) : Bool :=
  let (twice, value) := b.compared k (2 * n + 1) (8 * b.significand)
  value < twice || (value == twice && n % 2 == 0)

/-- The point of the grid `10 ^ k` that stands for the double, if the grid has one. -/
def onGrid? (b : Binary) (k : Int) : Option Nat :=
  let n := b.floorOn k
  match decide (b.Spans k n), decide (b.Spans k (n + 1)) with
  | true, true => if b.prefersLower k n then some n else some (n + 1)
  | true, false => some n
  | false, true => some (n + 1)
  | false, false => none

/-- The grids from `10 ^ 308` down, which is above every double's interval but for one point, to
`10 ^ (-343)`, which is below the distance of any two doubles. -/
def grids : List Int := (List.range 652).map fun (i : Nat) => 308 - (i : Int)

/-- The shortest decimal that reads back as the double. -/
def shortest (b : Binary) : Rounded :=
  if b.significand = 0 then ⟨0, 0⟩
  else (grids.findSome? fun k => (b.onGrid? k).map (⟨·, k⟩)).getD ⟨0, 0⟩

end Binary

end NamedTypes.Decimal
