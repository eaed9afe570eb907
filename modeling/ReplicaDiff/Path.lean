/-
# ReplicaDiff.Path — paths as text

A path is the text that the user gave; `join` is the only way in which paths are
put together.
-/
import ReplicaDiff.Text.Split

namespace ReplicaDiff.Path

set_option autoImplicit false

/-- Whether a path starts at the root. -/
def isAbsolute (path : String) : Bool := path.toList.head? = some '/'

/-- The path of `second` inside `first`.  An absolute `second` stands for itself, and so does any
`second` inside the empty path; a separator is put between the two unless one is there. -/
def join (first second : String) : String :=
  if isAbsolute second || first.isEmpty then second
  else if first.toList.getLast? = some '/' then first ++ second
  else first ++ "/" ++ second

/-- The names between the separators of a path, empty ones included. -/
def parts (path : String) : List String := (Text.split '/' path.toList).map String.ofList

end ReplicaDiff.Path
