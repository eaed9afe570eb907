/-
# ReplicaDiff.Json.Number — numbers

Only integers from zero up to a bound are values of interest.  A negative
number, and any number with a fraction or an exponent, is JSON of another shape;
so is an integer of more than 64 bits.  A number whose magnitude exceeds every
double is not accepted as JSON at all.
-/
import ReplicaDiff.Json.Reader

namespace ReplicaDiff.Json

set_option autoImplicit false

open ReplicaDiff.Text (Bytes)

/-- What a number is, as far as it matters. -/
inductive Number where
  | unsigned (n : Nat)
  | negative
  | fractional
deriving DecidableEq

/-- The largest integer of 64 bits. -/
def maxWord : Nat := 18446744073709551615

/-- Whether `digits * 10 ^ exponent` rounds to infinity as a double. -/
def overflows (digits : Nat) (exponent : Int) : Bool :=
  if digits = 0 ∨ exponent < 0 then false
  else if 308 < exponent then true
  else ((UInt64.ofNat digits).toFloat * Float.ofScientific 1 false exponent.toNat).isInf

/-- Split off the digits in front. -/
def spanDigits (input : Bytes) : Bytes × Bytes := (input.takeWhile isDigit, input.dropWhile isDigit)

/-- The integer of some digits, as far as 64 bits hold it, and how many digits were left out. -/
def significand : Nat → Bytes → Nat × Nat
  | acc, [] => (acc, 0)
  | acc, d :: rest =>
      if acc * 10 + digitValue d ≤ maxWord then significand (acc * 10 + digitValue d) rest
      else (acc, rest.length + 1)

/-- Largest exponent that is taken as it stands. -/
def maxExponent : Nat := 2147483647

/-- The value of the digits of an exponent. -/
def exponentValue (digits : Bytes) : Nat := digits.foldl (fun acc d => acc * 10 + digitValue d) 0

/-- Read an exponent after its letter; `digits` and `shift` describe the number so far. -/
def scanExponent (digits : Nat) (shift : Int) (input : Bytes) : Except Fault (Number × Bytes) :=
  let (rising, input) :=
    match input with
    | [] => (true, [])
    | b :: rest => if b = 43 then (true, rest) else if b = 45 then (false, rest) else (true, b :: rest)
  match input with
  | [] => .error .truncated
  | b :: _ =>
      if isDigit b then
        let (ds, rest) := spanDigits input
        let e := exponentValue ds
        if maxExponent < e then
          if digits ≠ 0 ∧ rising then .error .malformed else .ok (.fractional, rest)
        else if overflows digits (if rising then shift + e else shift - e) then .error .malformed
        else .ok (.fractional, rest)
      else .error .malformed

/-- What may follow the digits of a number that is not an integer of 64 bits. -/
def finishFraction (digits : Nat) (shift : Int) (input : Bytes) : Except Fault (Number × Bytes) :=
  match input with
  | b :: rest =>
      if b = 101 ∨ b = 69 then scanExponent digits shift rest
      else if overflows digits shift then .error .malformed
      else .ok (.fractional, input)
  | [] => if overflows digits shift then .error .malformed else .ok (.fractional, [])

/-- Read the fraction of a number after its point. -/
def scanFraction (digits : Nat) (shift : Int) (input : Bytes) : Except Fault (Number × Bytes) :=
  let (ds, rest) := spanDigits input
  match ds, rest with
  | [], [] => .error .truncated
  | [], _ :: _ => .error .malformed
  | _ :: _, _ =>
      let (n, dropped) := significand digits ds
      finishFraction n (shift - (ds.length - dropped : Nat)) rest

/-- Read a number after its sign. -/
def scanMagnitude (positive : Bool) (input : Bytes) : Except Fault (Number × Bytes) :=
  match input with
  | [] => .error .truncated
  | b :: after =>
      if ¬ isDigit b then .error .malformed
      else
        let (ds, rest) := if b = 48 then ([b], after) else spanDigits input
        let (n, dropped) := significand 0 ds
        match rest with
        | [] =>
            if 0 < dropped then finishFraction n dropped []
            else .ok (if positive then .unsigned n else .negative, [])
        | c :: tail =>
            if b = 48 ∧ isDigit c then .error .malformed
            else if c = 46 then scanFraction n dropped tail
            else if c = 101 ∨ c = 69 then scanExponent n dropped tail
            else if 0 < dropped then finishFraction n dropped rest
            else .ok (if positive then .unsigned n else .negative, rest)

end ReplicaDiff.Json
