/-
# ReplicaDiff.Document.Json — documents and sides as JSON

A document is an object with the members `Value` (Base64), `Flags`, `Datatype`
and `Cas`, all of which are required.  A side is its name.
-/
import ReplicaDiff.Base64
import ReplicaDiff.Document
import ReplicaDiff.Json.Shape
import ReplicaDiff.Json.Writer

namespace ReplicaDiff

set_option autoImplicit false

open ReplicaDiff.Text (Bytes ofUtf8? utf8)
open ReplicaDiff.Json

namespace Document

/-- Read a value of a document. -/
def readValue : Reader Bytes := fun input => do
  let (text, rest) ← readText input
  match Base64.decode? (utf8 text) with
  | some value => .ok (value, rest)
  | none => .error .mistyped

/-- The fields of a document. -/
def fields : List (RecordField Document) := [
  { name := "Value", read := fun d input => do
      let (value, rest) ← readValue input
      .ok ({ d with value }, rest) },
  { name := "Flags", read := fun d input => do
      let (n, rest) ← readUnsigned 4294967295 input
      .ok ({ d with flags := UInt32.ofNat n }, rest) },
  { name := "Datatype", read := fun d input => do
      let (n, rest) ← readUnsigned 255 input
      .ok ({ d with datatype := UInt8.ofNat n }, rest) },
  { name := "Cas", read := fun d input => do
      let (n, rest) ← readUnsigned maxWord input
      .ok ({ d with cas := UInt64.ofNat n }, rest) }]

/-- Read a document. -/
def read : Reader Document := readRecord fields true ⟨[], 0, 0, 0⟩

/-- The value of a document in letters. -/
def valueText (d : Document) : Bytes := quoteByte :: (Base64.encode d.value ++ [quoteByte])

/-- The JSON of a document. -/
def write (d : Document) : Bytes :=
  writeObject [
    ("Value", d.valueText),
    ("Flags", writeNat d.flags.toNat),
    ("Datatype", writeNat d.datatype.toNat),
    ("Cas", writeNat d.cas.toNat)]

end Document

namespace Side

/-- The name of a side in JSON. -/
def jsonName : Side → String
  | .source => "Source"
  | .target => "Target"

/-- The side of a name. -/
def ofJsonName? (name : String) : Option Side :=
  if name = "Source" then some .source
  else if name = "Target" then some .target
  else none

/-- Read the name of a side. -/
def readName : Reader Side := fun input => do
  let (name, rest) ← readText input
  match ofJsonName? name with
  | some side => .ok (side, rest)
  | none => .error .mistyped

/-- Read a side: its name, or an object with its name for a key and `null` for a value. -/
def read : Reader Side := fun input =>
  match skipBlank input with
  | [] => .error .truncated
  | b :: rest =>
      if b = quoteByte then readName (b :: rest)
      else if b = 123 then do
        let (side, rest) ← readName rest
        let rest ← afterColon rest
        let ((), rest) ← readNull rest
        match skipBlank rest with
        | [] => .error .truncated
        | c :: rest => if c = 125 then .ok (side, rest) else .error .malformed
      else .error .malformed

/-- The JSON of a side. -/
def write (side : Side) : Bytes := writeText side.jsonName

end Side

end ReplicaDiff
