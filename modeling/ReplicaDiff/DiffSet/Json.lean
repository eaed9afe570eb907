/-
# ReplicaDiff.DiffSet.Json — the differing keys as JSON

An object with one member for each kind of difference.  A mismatch is written as
the list of its two documents, the one of the source first.
-/
import ReplicaDiff.DiffSet
import ReplicaDiff.Document.Json

namespace ReplicaDiff.DiffSet

set_option autoImplicit false

open ReplicaDiff.Text (Bytes)
open ReplicaDiff.Json

/-- The fields of a set of differing keys. -/
def fields : List (RecordField DiffSet) := [
  { name := "Mismatch", read := fun set input => do
      let (mismatch, rest) ← readMap (readPair Document.read) input
      .ok ({ set with mismatch }, rest) },
  { name := "MissingFromSource", read := fun set input => do
      let (missingFromSource, rest) ← readMap Document.read input
      .ok ({ set with missingFromSource }, rest) },
  { name := "MissingFromTarget", read := fun set input => do
      let (missingFromTarget, rest) ← readMap Document.read input
      .ok ({ set with missingFromTarget }, rest) }]

/-- Read a set of differing keys. -/
def read : Reader DiffSet := readRecord fields true empty

/-- A map with its values written. -/
def writeMap {V : Type} (write : V → Bytes) (m : KeyMap V) : Bytes :=
  writeObject (m.entries.map fun e => (e.1, write e.2))

/-- The JSON of a set of differing keys. -/
def write (set : DiffSet) : Bytes :=
  writeObject [
    ("Mismatch", writeMap (fun p => writeList [p.1.write, p.2.write]) set.mismatch),
    ("MissingFromSource", writeMap Document.write set.missingFromSource),
    ("MissingFromTarget", writeMap Document.write set.missingFromTarget)]

end ReplicaDiff.DiffSet
