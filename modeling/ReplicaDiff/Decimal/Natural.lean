/-
# ReplicaDiff.Decimal.Natural — whole numbers as people write them

Digits of ASCII, with at most one sign before them.  Zeros in front do not count.
-/

namespace ReplicaDiff.Decimal

set_option autoImplicit false

/-- The value of a digit. -/
def digitValue? (c : Char) : Option Nat :=
  if '0' ≤ c ∧ c ≤ '9' then some (c.toNat - '0'.toNat) else none

/-- The number of some digits, given the number of those before them. -/
def ofDigitsAfter? (before : Nat) : List Char → Option Nat
  | [] => some before
  | c :: rest => do ofDigitsAfter? (before * 10 + (← digitValue? c)) rest

/-- The number of some digits, of which there must be one at least. -/
def ofDigits? (cs : List Char) : Option Nat :=
  if cs.isEmpty then none else ofDigitsAfter? 0 cs

/-- A number that may have a plus before it. -/
def unsigned? : List Char → Option Nat
  | '+' :: rest => ofDigits? rest
  | cs => ofDigits? cs

/-- A number that may have a plus or a minus before it. -/
def signed? : List Char → Option Int
  | '-' :: rest => (ofDigits? rest).map fun n => -(n : Int)
  | cs => (unsigned? cs).map Int.ofNat

end ReplicaDiff.Decimal
