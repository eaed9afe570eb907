/-
# ReplicaDiff.Event.Line — an event in one line
-/
import ReplicaDiff.Event
import ReplicaDiff.Json.Writer
import ReplicaDiff.Text.Quoted

namespace ReplicaDiff

set_option autoImplicit false

open ReplicaDiff.Json

/-- A value where fields are listed. -/
def FieldValue.shownText : FieldValue → String
  | .number n => toString n
  | .shown text => text
  | .quoted text => Text.quoted text

/-- A value as JSON. -/
def FieldValue.write : FieldValue → Text.Bytes
  | .number n => writeNat n
  | .shown text => writeText text
  | .quoted text => writeText text

namespace Event

/-- An event as a line of text: its level, its message and its fields. -/
def line (e : Event) : String :=
  " ".intercalate (e.level.name :: e.message :: e.fields.map fun f => f.1 ++ "=" ++ f.2.shownText)

/-- An event as a line of JSON. -/
def jsonLine (e : Event) : Text.Bytes :=
  writeObject [
    ("level", writeText e.level.name),
    ("fields", writeObject
      (("message", writeText e.message) :: e.fields.map fun f => (f.1, f.2.write))),
    ("target", writeText e.target)]

end Event

end ReplicaDiff
