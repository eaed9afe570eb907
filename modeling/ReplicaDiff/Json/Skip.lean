/-
# ReplicaDiff.Json.Skip — passing over a value

A member of no interest is passed over: it is checked for its form alone, to any
depth, without looking at the range of its numbers or the characters of its
strings.
-/
import ReplicaDiff.Json.Quoted

namespace ReplicaDiff.Json

set_option autoImplicit false

open ReplicaDiff.Text (Bytes)

/-- Pass over a string after its opening quotation mark. -/
def skipQuoted : Bytes → Except Fault Bytes
  | [] => .error .truncated
  | b :: rest =>
      if b = quoteByte then .ok rest
      else if b = backslashByte then
        match rest with
        | [] => .error .truncated
        | e :: rest =>
            if e = 117 then
              match rest with
              | h₁ :: h₂ :: h₃ :: h₄ :: rest =>
                  if (codeUnit? h₁ h₂ h₃ h₄).isSome then skipQuoted rest else .error .malformed
              | _ => .error .truncated
            else if (shortEscape? e).isSome then skipQuoted rest
            else .error .malformed
      else if b < 32 then .error .malformed
      else skipQuoted rest

/-- Pass over digits, of which there must be one. -/
def skipDigits : Bytes → Except Fault Bytes
  | [] => .error .malformed
  | b :: rest => if isDigit b then .ok (rest.dropWhile isDigit) else .error .malformed

/-- Pass over an exponent, if one follows. -/
def skipExponent (input : Bytes) : Except Fault Bytes :=
  match input with
  | b :: rest =>
      if b = 101 ∨ b = 69 then
        match rest with
        | s :: tail => if s = 43 ∨ s = 45 then skipDigits tail else skipDigits rest
        | [] => .error .malformed
      else .ok input
  | [] => .ok []

/-- Pass over a number after its sign. -/
def skipNumber (input : Bytes) : Except Fault Bytes := do
  let rest ← match input with
    | [] => Except.error Fault.malformed
    | b :: rest =>
        if b = 48 then
          match rest with
          | c :: _ => if isDigit c then .error .malformed else .ok rest
          | [] => .ok rest
        else skipDigits input
  match rest with
  | b :: tail =>
      if b = 46 then do
        let rest ← skipDigits tail
        skipExponent rest
      else skipExponent rest
  | [] => .ok []

/-- A bracket that has been opened. -/
inductive Bracket where
  | list
  | object
deriving DecidableEq

/-- What the skipping of nested values looks for next. -/
inductive Wanted where
  /-- A value. -/
  | value
  /-- The end of the innermost bracket, or what comes first in it. -/
  | first
  /-- The end of the innermost bracket, or a comma. -/
  | more
  /-- A key of the innermost bracket, which is an object. -/
  | key
deriving DecidableEq

/-- Pass over values until every bracket in `opened` (the innermost first) is closed; `fuel`
exceeds twice the number of bytes. -/
def skipNested : Nat → List Bracket → Wanted → Bytes → Except Fault Bytes
  | 0, _, _, _ => .error .truncated
  | fuel + 1, opened, wanted, input =>
      match wanted with
      | .value =>
          match skipBlank input with
          | [] => .error .truncated
          | b :: rest =>
              if b = 91 then skipNested fuel (.list :: opened) .first rest
              else if b = 123 then skipNested fuel (.object :: opened) .first rest
              else do
                let rest ←
                  if b = 110 then expectWord [117, 108, 108] rest
                  else if b = 116 then expectWord [114, 117, 101] rest
                  else if b = 102 then expectWord [97, 108, 115, 101] rest
                  else if b = 45 then skipNumber rest
                  else if isDigit b then skipNumber (b :: rest)
                  else if b = quoteByte then skipQuoted rest
                  else .error .malformed
                match opened with
                | [] => .ok rest
                | _ :: _ => skipNested fuel opened .more rest
      | .key =>
          match skipBlank input with
          | [] => .error .truncated
          | b :: rest =>
              if b = quoteByte then do
                let rest ← skipQuoted rest
                let rest ← afterColon rest
                skipNested fuel opened .value rest
              else .error .malformed
      | _ =>
          match opened with
          | [] => .ok input
          | bracket :: outer =>
              match skipBlank input with
              | [] => .error .truncated
              | b :: rest =>
                  if b = (if bracket = .list then 93 else 125) then
                    match outer with
                    | [] => .ok rest
                    | _ :: _ => skipNested fuel outer .more rest
                  else if wanted = .more ∧ b ≠ 44 then .error .malformed
                  else
                    skipNested fuel opened (if bracket = .list then .value else .key)
                      (if wanted = .more then rest else b :: rest)

/-- Pass over a value. -/
def skipValue (input : Bytes) : Except Fault Bytes :=
  skipNested (2 * input.length + 2) [] .value input

end ReplicaDiff.Json
