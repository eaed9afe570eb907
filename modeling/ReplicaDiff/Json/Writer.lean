/-
# ReplicaDiff.Json.Writer — compact JSON

Values are written without blanks: lists between brackets and objects between
braces, their parts separated by commas.
-/
import ReplicaDiff.Json.Quoted

namespace ReplicaDiff.Json

set_option autoImplicit false

open ReplicaDiff.Text (Bytes utf8)

/-- An integer in decimal digits. -/
def writeNat (n : Nat) : Bytes := utf8 (toString n)

/-- Parts with a comma between any two. -/
def commaSeparated : List Bytes → Bytes
  | [] => []
  | [part] => part
  | part :: parts => part ++ 44 :: commaSeparated parts

/-- A list of written values. -/
def writeList (parts : List Bytes) : Bytes := 91 :: (commaSeparated parts ++ [93])

/-- A member of an object. -/
def writeMember (key : String) (value : Bytes) : Bytes := writeText key ++ 58 :: value

/-- An object of keys and written values. -/
def writeObject (members : List (String × Bytes)) : Bytes :=
  123 :: (commaSeparated (members.map fun m => writeMember m.1 m.2) ++ [125])

end ReplicaDiff.Json
