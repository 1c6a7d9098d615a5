import NamedTypes.Json.ReadError
import NamedTypes.Json.Value

/-! # Numbers of JSON
A numeral is read as its parts first (`Numeral`) and given a value second (`Numeral.value`). A
numeral without fraction and exponent that fits 64 bits is an integer. Every other one is a floating
point number computed from a **scientific form** (`Scientific`): as many leading digits as fit 64
bits, and a power of ten by which the double nearest to them is multiplied or divided. -/

namespace NamedTypes.Json

/-- The parts of a numeral. -/
structure Numeral where
  /-- Whether a minus sign stands in front. -/
  negative : Bool
  /-- The digits before the point. -/
  whole : List Nat
  /-- The digits after the point, if there is a point. -/
  fraction : Option (List Nat)
  /-- The exponent, if there is one: whether it is negative, and its digits. -/
  exponent : Option (Bool × List Nat)
deriving DecidableEq, Repr

/-! ## Reading the parts -/

/-- The digits at the front of a text, and the text after them. -/
def takeDigits (cs : List Char) : List Nat × List Char :=
  ((cs.takeWhile Char.isDigit).map fun c => c.toNat - '0'.toNat, cs.dropWhile Char.isDigit)

/-- Reads at least one digit. -/
def readDigits : Reader (List Nat) := fun cs =>
  match takeDigits cs, cs with
  | ([], _), [] => .error .endInValue
  | ([], _), _ :: _ => .error .invalidNumber
  | digits, _ => .ok digits

/-- Reads the digits before the point; only a lone zero begins with zero. -/
def readWhole : Reader (List Nat) := fun cs => do
  let (digits, rest) ← readDigits cs
  match digits with
  | 0 :: _ :: _ => .error .invalidNumber
  | _ => return (digits, rest)

/-- Reads a point and the digits after it, if a point comes next. -/
def readFraction : Reader (Option (List Nat))
  | '.' :: cs => do
    let (digits, rest) ← readDigits cs
    return (some digits, rest)
  | cs => .ok (none, cs)

/-- Reads an exponent, if one comes next. -/
def readExponent : Reader (Option (Bool × List Nat))
  | c :: cs =>
    if c = 'e' ∨ c = 'E' then
      let (negative, digitsFrom) := match cs with
        | '-' :: rest => (true, rest)
        | '+' :: rest => (false, rest)
        | rest => (false, rest)
      do
        let (digits, rest) ← readDigits digitsFrom
        return (some (negative, digits), rest)
    else .ok (none, c :: cs)
  | [] => .ok (none, [])

/-- Reads a numeral. -/
def readNumeral : Reader Numeral := fun cs => do
  let (negative, cs) := match cs with
    | '-' :: rest => (true, rest)
    | rest => (false, rest)
  let (whole, cs) ← readWhole cs
  let (fraction, cs) ← readFraction cs
  let (exponent, cs) ← readExponent cs
  return ({ negative, whole, fraction, exponent }, cs)

/-! ## Scientific form -/

/-- The greatest significand that is kept, and the greatest integer: the greatest number of 64
bits. -/
def maxSignificand : Nat := 18446744073709551615

/-- The greatest magnitude of a negative integer of 64 bits. -/
def maxMagnitude : Nat := 9223372036854775808

/-- The number `significand * 10 ^ exponent`. -/
structure Scientific where
  /-- The leading digits, at most `maxSignificand`. -/
  significand : Nat
  /-- The power of ten. -/
  exponent : Int
deriving DecidableEq, Repr

namespace Scientific

/-- Takes in digits before the point. The first digit that does not fit and all after it only raise
the power of ten. -/
def takeWhole : Scientific → List Nat → Scientific
  | s, [] => s
  | s, d :: ds =>
    if s.significand * 10 + d ≤ maxSignificand then
      takeWhole { s with significand := s.significand * 10 + d } ds
    else { s with exponent := s.exponent + (ds.length + 1) }

/-- Takes in digits after the point. The first digit that does not fit and all after it are
dropped. -/
def takeFraction : Scientific → List Nat → Scientific
  | s, [] => s
  | s, d :: ds =>
    if s.significand * 10 + d ≤ maxSignificand then
      takeFraction ⟨s.significand * 10 + d, s.exponent - 1⟩ ds
    else s

/-- The greatest power of ten that is a double. -/
def maxPower : Nat := 308

/-- A power of ten as a double, exact up to rounding, for exponents up to `maxPower`. -/
def power (exponent : Nat) : Float := Float.ofScientific 1 false exponent

/-- Divides by a power of ten, by the greatest one first as often as needed. Three rounds suffice:
two divisions by `10 ^ 308` make every significand zero. -/
def divide : Nat → Float → Nat → Float
  | 0, _, _ => 0
  | rounds + 1, f, exponent =>
    if exponent ≤ maxPower then f / power exponent
    else divide rounds (f / power maxPower) (exponent - maxPower)

/-- The double that a scientific form stands for; `none` if it is too large. -/
def toFloat? (s : Scientific) : Option Float :=
  let f := s.significand.toUInt64.toFloat
  if s.significand = 0 then some 0
  else if s.exponent < 0 then some (divide 3 f s.exponent.natAbs)
  else if s.exponent.natAbs > maxPower then none
  else
    let scaled := f * power s.exponent.natAbs
    if scaled.isInf then none else some scaled

end Scientific

/-! ## Values of numerals -/

/-- The natural number with the given decimal digits. -/
def ofDigits (digits : List Nat) : Nat := digits.foldl (fun n d => n * 10 + d) 0

/-- The number that a numeral without fraction and exponent stands for, if it is an integer of 64
bits. Minus zero is none: it is a floating point number. -/
def Numeral.integer? (n : Numeral) : Option Int :=
  match n.fraction, n.exponent with
  | none, none =>
    let value := ofDigits n.whole
    if n.negative then if 0 < value ∧ value ≤ maxMagnitude then some (-value) else none
    else if value ≤ maxSignificand then some value else none
  | _, _ => none

/-- The scientific form of a numeral. -/
def Numeral.scientific (n : Numeral) : Scientific :=
  let digits := ((⟨0, 0⟩ : Scientific).takeWhole n.whole).takeFraction (n.fraction.getD [])
  match n.exponent with
  | none => digits
  | some (true, e) => { digits with exponent := digits.exponent - ofDigits e }
  | some (false, e) => { digits with exponent := digits.exponent + ofDigits e }

/-- The number that a numeral stands for. -/
def Numeral.value (n : Numeral) : Except ReadError Number :=
  match n.integer? with
  | some i => .ok (.int i)
  | none => match n.scientific.toFloat? with
    | some f => .ok (.float (if n.negative then -f else f))
    | none => .error .numberOutOfRange

/-- Reads a number. -/
def readNumber : Reader Number := fun cs => do
  let (numeral, rest) ← readNumeral cs
  return (← numeral.value, rest)

end NamedTypes.Json
