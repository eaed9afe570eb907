/-
# ReplicaDiff.StartupError — why a run did not begin
-/
import ReplicaDiff.Document
import ReplicaDiff.IoError
import ReplicaDiff.Json.Reader

namespace ReplicaDiff

set_option autoImplicit false

/-- The text of a fault of a JSON text, in words of this library: they stand for those of the reader,
which also say at which line and column the fault is. -/
def Json.Fault.message : Json.Fault → String
  | .malformed => "not valid JSON"
  | .mistyped => "JSON of an unexpected shape"
  | .truncated => "unexpected end of JSON"

/-- Why a run did not begin. -/
inductive StartupError where
  | keyListRead (path : String) (cause : IoError)
  | keyListParse (path : String) (fault : Json.Fault)
  | connect (side : Side) (url reason : String)
  | invalidConfig (reason : String)
deriving DecidableEq

namespace StartupError

/-- The text of an error. -/
def message : StartupError → String
  | .keyListRead path cause => "failed to read key list " ++ path ++ ": " ++ cause.message
  | .keyListParse path fault => "malformed key list " ++ path ++ ": " ++ fault.message
  | .connect side url reason =>
      "failed to connect to " ++ side.name ++ " cluster at " ++ url ++ ": " ++ reason
  | .invalidConfig reason => "invalid configuration: " ++ reason

/-- The text of the error behind an error, if there is one. -/
def cause? : StartupError → Option String
  | .keyListRead _ cause => some cause.message
  | .keyListParse _ fault => some fault.message
  | .connect .. => none
  | .invalidConfig _ => none

end StartupError

end ReplicaDiff
