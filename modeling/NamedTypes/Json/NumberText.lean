import NamedTypes.Decimal.Shortest
import NamedTypes.Json.Value

/-! # The text of a number
How numbers stand in diagnostics. A floating point number is written by its shortest decimal, always
with a point or an exponent, so that it cannot be taken for an integer. -/

namespace NamedTypes.Json

/-- When a decimal is written without exponent: if its point stands after at most `most` digits, and
at most `zeros` zeros follow the point before the first other digit. -/
structure PositionalRange where
  /-- The greatest number of digits before the point. -/
  most : Int
  /-- The greatest number of zeros after the point. -/
  zeros : Int

/-- Numbers below `10 ^ 16` and from `10 ^ (-5)` on are written without exponent. -/
def Number.positional : PositionalRange := ⟨16, 4⟩

/-- The text of an exponent: its sign, whichever it is, and its digits without leading zeros. -/
def Number.exponentText (exponent : Int) : String :=
  (if exponent < 0 then "e-" else "e+") ++ toString exponent.natAbs

/-- The text of a positive decimal. -/
def Number.decimalText (d : Decimal.Rounded) : String :=
  let digits := toString d.digits
  let point : Int := digits.length + d.exponent
  if 0 ≤ d.exponent ∧ point ≤ Number.positional.most then
    digits ++ String.ofList (List.replicate d.exponent.toNat '0') ++ ".0"
  else if 0 < point ∧ point ≤ Number.positional.most then
    String.ofList (digits.toList.take point.toNat) ++ "." ++
      String.ofList (digits.toList.drop point.toNat)
  else if -Number.positional.zeros ≤ point ∧ point ≤ 0 then
    "0." ++ String.ofList (List.replicate (-point).toNat '0') ++ digits
  else
    let fraction := if digits.length = 1 then "" else "." ++ String.ofList (digits.toList.drop 1)
    String.ofList (digits.toList.take 1) ++ fraction ++ Number.exponentText (point - 1)

/-- The text of a floating point number. -/
def Number.floatText (f : Float) : String :=
  (if Decimal.isNegative f then "-" else "") ++
    Number.decimalText (Decimal.Binary.ofFloat f).shortest

/-- The text of a number. -/
def Number.text : Number → String
  | .int i => toString i
  | .float f => Number.floatText f

end NamedTypes.Json
