/-
# ReplicaDiff.Text.Quoted — text in quotation marks, for people to read

Characters that would end the quotation, and those that would not be seen, are
escaped.  Paths escape the apostrophe too.
-/
import ReplicaDiff.Text.Unprintable

namespace ReplicaDiff.Text

set_option autoImplicit false

/-- A character by its code point. -/
def escapedCodePoint (c : Char) : List Char :=
  ['\\', 'u', '\x7b'] ++ Nat.toDigits 16 c.toNat ++ ['\x7d']

/-- How one character is written between quotation marks. -/
def escapeChar (apostrophe : Bool) (c : Char) : List Char :=
  if c = '\x00' then ['\\', '0']
  else if c = '\t' then ['\\', 't']
  else if c = '\r' then ['\\', 'r']
  else if c = '\n' then ['\\', 'n']
  else if c = '"' then ['\\', '"']
  else if c = '\\' then ['\\', '\\']
  else if c = '\x27' then if apostrophe then ['\\', '\x27'] else ['\x27']
  else if 0x20 ≤ c.toNat && c.toNat ≤ 0x7E then [c]
  else if isAttaching c || isPictureless c then escapedCodePoint c
  else [c]

/-- A text in quotation marks. -/
def quoted (s : String) : String :=
  String.ofList ('"' :: (s.toList.flatMap (escapeChar false) ++ ['"']))

/-- A path in quotation marks. -/
def quotedPath (s : String) : String :=
  String.ofList ('"' :: (s.toList.flatMap (escapeChar true) ++ ['"']))

end ReplicaDiff.Text
