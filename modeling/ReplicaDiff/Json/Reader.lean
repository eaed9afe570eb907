/-
# ReplicaDiff.Json.Reader — reading JSON from its bytes

A reader takes the bytes that are left and gives a value with the bytes after
it, or the first fault that it meets going from left to right.  Readers know
which kind of value they want, so that a value of another kind is a fault of its
own (`Fault.mistyped`) and is told from text that is not JSON
(`Fault.malformed`) and from text that ends too early (`Fault.truncated`).
-/
import ReplicaDiff.Text.Utf8

namespace ReplicaDiff.Json

set_option autoImplicit false

open ReplicaDiff.Text (Bytes ofUtf8?)

/-- What is wrong with a text that could not be read. -/
inductive Fault where
  /-- The text is not JSON. -/
  | malformed
  /-- The text is JSON of another shape. -/
  | mistyped
  /-- The text ends before the value does. -/
  | truncated
deriving DecidableEq, Inhabited

/-- Reads a value from the front of the bytes. -/
abbrev Reader (α : Type) := Bytes → Except Fault (α × Bytes)

/-- Space, tab, line feed and carriage return. -/
def isBlankByte (b : UInt8) : Bool := b = 32 || b = 9 || b = 10 || b = 13

/-- The bytes from the first one on that is not blank. -/
def skipBlank : Bytes → Bytes := List.dropWhile isBlankByte

/-- The decimal digits. -/
def isDigit (b : UInt8) : Bool := 48 ≤ b && b ≤ 57

/-- The value of a decimal digit. -/
def digitValue (b : UInt8) : Nat := b.toNat - 48

/-- Read the rest of a word that has been recognised by its first letter. -/
def expectWord : Bytes → Bytes → Except Fault Bytes
  | [], input => .ok input
  | _ :: _, [] => .error .truncated
  | w :: ws, b :: input => if b = w then expectWord ws input else .error .malformed

/-- What comes after the colon between a key and its value. -/
def afterColon (input : Bytes) : Except Fault Bytes :=
  match skipBlank input with
  | [] => .error .truncated
  | b :: rest => if b = 58 then .ok rest else .error .malformed

/-- Nothing but blank bytes may follow the value of a whole text. -/
def atEnd {α : Type} (result : α × Bytes) : Except Fault α :=
  match skipBlank result.2 with
  | [] => .ok result.1
  | _ :: _ => .error .malformed

/-- Read a whole text as one value. -/
def readAll {α : Type} (read : Reader α) (input : Bytes) : Except Fault α :=
  read input >>= atEnd

end ReplicaDiff.Json
