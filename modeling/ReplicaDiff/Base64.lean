/-
# ReplicaDiff.Base64 — bytes as letters

Three bytes are written as four letters of the standard alphabet, and a rest of
one or two bytes is padded to four letters.  Each list of bytes has one written
form: `decode?` refuses missing padding, spare bits that are not zero, and every
letter outside the alphabet.
-/
import ReplicaDiff.Text.Utf8

namespace ReplicaDiff.Base64

set_option autoImplicit false

open ReplicaDiff.Text (Bytes)

/-- The letter of a value below 64. -/
def letter (n : Nat) : UInt8 :=
  UInt8.ofNat <|
    if n < 26 then 65 + n
    else if n < 52 then 97 + (n - 26)
    else if n < 62 then 48 + (n - 52)
    else if n = 62 then 43
    else 47

/-- The value of a letter. -/
def letterValue? (b : UInt8) : Option Nat :=
  let n := b.toNat
  if 65 ≤ n ∧ n ≤ 90 then some (n - 65)
  else if 97 ≤ n ∧ n ≤ 122 then some (n - 97 + 26)
  else if 48 ≤ n ∧ n ≤ 57 then some (n - 48 + 52)
  else if n = 43 then some 62
  else if n = 47 then some 63
  else none

/-- The letter that fills up the last group of four. -/
def padding : UInt8 := 61

/-- The written form of some bytes. -/
def encode : Bytes → Bytes
  | [] => []
  | [a] =>
      [letter (a.toNat / 4), letter (a.toNat % 4 * 16), padding, padding]
  | [a, b] =>
      [letter (a.toNat / 4), letter (a.toNat % 4 * 16 + b.toNat / 16),
        letter (b.toNat % 16 * 4), padding]
  | a :: b :: c :: rest =>
      letter (a.toNat / 4) :: letter (a.toNat % 4 * 16 + b.toNat / 16) ::
        letter (b.toNat % 16 * 4 + c.toNat / 64) :: letter (c.toNat % 64) :: encode rest

/-- The bytes of a last group of four letters, which may be padded. -/
def decodeLast? (a b c d : UInt8) : Option Bytes := do
  let x ← letterValue? a
  let y ← letterValue? b
  if c = padding then
    if d = padding ∧ y % 16 = 0 then
      return [UInt8.ofNat (x * 4 + y / 16)]
    else none
  else
    let z ← letterValue? c
    if d = padding then
      if z % 4 = 0 then
        return [UInt8.ofNat (x * 4 + y / 16), UInt8.ofNat (y % 16 * 16 + z / 4)]
      else none
    else
      let w ← letterValue? d
      return [UInt8.ofNat (x * 4 + y / 16), UInt8.ofNat (y % 16 * 16 + z / 4),
        UInt8.ofNat (z % 4 * 64 + w)]

/-- The bytes of a group of four letters that others follow. -/
def decodeInner? (a b c d : UInt8) : Option Bytes := do
  let x ← letterValue? a
  let y ← letterValue? b
  let z ← letterValue? c
  let w ← letterValue? d
  return [UInt8.ofNat (x * 4 + y / 16), UInt8.ofNat (y % 16 * 16 + z / 4),
    UInt8.ofNat (z % 4 * 64 + w)]

/-- The bytes whose written form this is. -/
def decode? : Bytes → Option Bytes
  | [] => some []
  | [a, b, c, d] => decodeLast? a b c d
  | a :: b :: c :: d :: rest => do
      let head ← decodeInner? a b c d
      let tail ← decode? rest
      return head ++ tail
  | _ => none

end ReplicaDiff.Base64
