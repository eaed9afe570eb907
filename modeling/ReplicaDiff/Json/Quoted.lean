/-
# ReplicaDiff.Json.Quoted — strings in quotes

A string is written between quotation marks, its bytes as they are but for
the quotation mark, the backslash and the control characters, which are
escaped.  Reading undoes every escape of JSON, joins surrogate pairs, and
refuses control characters and bytes that are not UTF-8.
-/
import ReplicaDiff.Json.Reader

namespace ReplicaDiff.Json

set_option autoImplicit false

open ReplicaDiff.Text (Bytes ofUtf8? utf8)

/-- The quotation mark. -/
def quoteByte : UInt8 := 34

/-- The backslash. -/
def backslashByte : UInt8 := 92

/-- The byte that a backslash and this letter stand for. -/
def shortEscape? (b : UInt8) : Option UInt8 :=
  if b = 34 then some 34
  else if b = 92 then some 92
  else if b = 47 then some 47
  else if b = 98 then some 8
  else if b = 102 then some 12
  else if b = 110 then some 10
  else if b = 114 then some 13
  else if b = 116 then some 9
  else none

/-- The value of a hexadecimal digit. -/
def hexValue? (b : UInt8) : Option Nat :=
  let n := b.toNat
  if 48 ≤ n ∧ n ≤ 57 then some (n - 48)
  else if 97 ≤ n ∧ n ≤ 102 then some (n - 87)
  else if 65 ≤ n ∧ n ≤ 70 then some (n - 55)
  else none

/-- The code unit of four hexadecimal digits. -/
def codeUnit? (a b c d : UInt8) : Option Nat := do
  let a ← hexValue? a
  let b ← hexValue? b
  let c ← hexValue? c
  let d ← hexValue? d
  return ((a * 16 + b) * 16 + c) * 16 + d

/-- Code units that begin a surrogate pair. -/
def isLeading (u : Nat) : Bool := 0xD800 ≤ u && u ≤ 0xDBFF

/-- Code units that end a surrogate pair. -/
def isTrailing (u : Nat) : Bool := 0xDC00 ≤ u && u ≤ 0xDFFF

/-- The bytes of a character given by its code point. -/
def codePoint (n : Nat) : Bytes := String.utf8EncodeChar (Char.ofNat n)

/-- The code point of a surrogate pair. -/
def joinPair (leading trailing : Nat) : Nat :=
  0x10000 + (leading - 0xD800) * 0x400 + (trailing - 0xDC00)

/-- Put bytes before what is read next. -/
def before (bytes : Bytes) : Except Fault (Bytes × Bytes) → Except Fault (Bytes × Bytes)
  | .ok (read, rest) => .ok (bytes ++ read, rest)
  | .error fault => .error fault

/-- The bytes up to the closing quotation mark with their escapes undone, and the bytes after
it. -/
def scanQuoted : Bytes → Except Fault (Bytes × Bytes)
  | [] => .error .truncated
  | b :: rest =>
      if b = quoteByte then .ok ([], rest)
      else if b = backslashByte then
        match rest with
        | [] => .error .truncated
        | e :: rest =>
            if e = 117 then
              match rest with
              | h₁ :: h₂ :: h₃ :: h₄ :: rest =>
                  match codeUnit? h₁ h₂ h₃ h₄ with
                  | none => .error .malformed
                  | some u =>
                      if isTrailing u then .error .malformed
                      else if isLeading u then
                        match rest with
                        | [] => .error .truncated
                        | s :: rest =>
                            if s ≠ backslashByte then .error .malformed
                            else
                              match rest with
                              | [] => .error .truncated
                              | e :: rest =>
                                  if e ≠ 117 then .error .malformed
                                  else
                                    match rest with
                                    | k₁ :: k₂ :: k₃ :: k₄ :: rest =>
                                        match codeUnit? k₁ k₂ k₃ k₄ with
                                        | none => .error .malformed
                                        | some t =>
                                            if isTrailing t then
                                              before (codePoint (joinPair u t)) (scanQuoted rest)
                                            else .error .malformed
                                    | _ => .error .truncated
                      else before (codePoint u) (scanQuoted rest)
              | _ => .error .truncated
            else
              match shortEscape? e with
              | none => .error .malformed
              | some c => before [c] (scanQuoted rest)
      else if b < 32 then .error .malformed
      else before [b] (scanQuoted rest)

/-- Read a string after its opening quotation mark. -/
def quotedText : Reader String := fun input => do
  let (bytes, rest) ← scanQuoted input
  match ofUtf8? bytes with
  | some s => .ok (s, rest)
  | none => .error .malformed

/-- The digit of a value below sixteen. -/
def hexDigit (n : Nat) : UInt8 := UInt8.ofNat (if n < 10 then 48 + n else 87 + n)

/-- How one byte of a string is written. -/
def escapeByte (b : UInt8) : Bytes :=
  if b = quoteByte then [backslashByte, quoteByte]
  else if b = backslashByte then [backslashByte, backslashByte]
  else if b = 8 then [backslashByte, 98]
  else if b = 9 then [backslashByte, 116]
  else if b = 10 then [backslashByte, 110]
  else if b = 12 then [backslashByte, 102]
  else if b = 13 then [backslashByte, 114]
  else if b < 32 then
    [backslashByte, 117, 48, 48, hexDigit (b.toNat / 16), hexDigit (b.toNat % 16)]
  else [b]

/-- A string in quotation marks. -/
def writeText (s : String) : Bytes :=
  quoteByte :: ((utf8 s).flatMap escapeByte ++ [quoteByte])

end ReplicaDiff.Json
