/-
# ReplicaDiff.Decimal.Whole — a double as a whole number

A finite double is `mantissa * 2 ^ exponent`; `roundHalfEven` gives the nearest
whole number, of two the even one, and `wholeText` its digits.
-/

namespace ReplicaDiff.Decimal

set_option autoImplicit false

/-- The whole number nearest to `numerator / denominator`; a half goes to the even neighbour. -/
def roundHalfEven (numerator denominator : Nat) : Nat :=
  let down := numerator / denominator
  let rest := numerator % denominator
  if 2 * rest < denominator then down
  else if denominator < 2 * rest then down + 1
  else if down % 2 = 0 then down
  else down + 1

/-- The fields of a double: sign, exponent and fraction. -/
structure Fields where
  negative : Bool
  exponent : Nat
  fraction : Nat

/-- The number of fractions of a double. -/
def fractionRange : Nat := Nat.pow 2 52

/-- The number of exponents of a double. -/
def exponentRange : Nat := Nat.pow 2 11

/-- The fields of the bits of a double. -/
def Fields.ofBits (bits : UInt64) : Fields where
  negative := bits.toNat / (fractionRange * exponentRange) = 1
  exponent := bits.toNat / fractionRange % exponentRange
  fraction := bits.toNat % fractionRange

/-- The magnitude of a finite double, rounded to a whole number. -/
def Fields.whole (f : Fields) : Nat :=
  let mantissa := if f.exponent = 0 then f.fraction else f.fraction + fractionRange
  let exponent := if f.exponent = 0 then 1 else f.exponent
  if 1075 ≤ exponent then mantissa * Nat.pow 2 (exponent - 1075)
  else roundHalfEven mantissa (Nat.pow 2 (1075 - exponent))

/-- A double as a whole number. -/
def wholeText (x : Float) : String :=
  let f := Fields.ofBits x.toBits
  let sign := if f.negative then "-" else ""
  if f.exponent = 2047 then
    if f.fraction = 0 then sign ++ "inf" else "NaN"
  else sign ++ toString f.whole

end ReplicaDiff.Decimal
