/-
# ReplicaDiff.Output.Artifact — the three files that a run leaves
-/
import ReplicaDiff.DiffSet.Json
import ReplicaDiff.IoError
import ReplicaDiff.Path
import ReplicaDiff.Tally

namespace ReplicaDiff.Output

set_option autoImplicit false

open ReplicaDiff.Text (Bytes)
open ReplicaDiff.Json

/-- The files that a run leaves. -/
inductive Artifact where
  /-- The keys that differ. -/
  | diffKeys
  /-- The keys that could not be checked. -/
  | errorKeys
  /-- The documents of every difference. -/
  | diffDetails
deriving DecidableEq

/-- The files in the order in which they are written. -/
def Artifact.all : List Artifact := [.diffKeys, .errorKeys, .diffDetails]

/-- What a file is called in messages. -/
def Artifact.name : Artifact → String
  | .diffKeys => "diff keys"
  | .errorKeys => "error keys"
  | .diffDetails => "diff details"

/-- The directory of the files, and the file name of the keys that differ. -/
structure Layout where
  dir : String
  diffKeysFile : String
deriving DecidableEq

/-- The path of a file. -/
def Layout.path (l : Layout) : Artifact → String
  | .diffKeys => Path.join l.dir l.diffKeysFile
  | .errorKeys => Path.join l.dir "diffKeysWithError"
  | .diffDetails => Path.join l.dir "mutationDiffDetails"

/-- A list of keys as JSON. -/
def writeKeys (keys : List String) : Bytes := writeList (keys.map writeText)

/-- What a file holds. -/
def Artifact.content (s : Snapshot) : Artifact → Bytes
  | .diffKeys => writeKeys s.diffKeys
  | .errorKeys => writeKeys s.keysWithError
  | .diffDetails => s.diffs.write

/-- Why a file could not be written. -/
structure Error where
  path : String
  cause : IoError
deriving DecidableEq

/-- The text of an error. -/
def Error.message (e : Error) : String := "failed to write " ++ e.path ++ ": " ++ e.cause.message

end ReplicaDiff.Output
