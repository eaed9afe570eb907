/-
# ReplicaDiff.KeyList — the candidate keys

The list is a file that holds a JSON list of strings.  A key that is listed again
is dropped, so that each key is fetched and counted once.
-/
import ReplicaDiff.Event
import ReplicaDiff.FileTree
import ReplicaDiff.Json.Shape

namespace ReplicaDiff.KeyList

set_option autoImplicit false

open ReplicaDiff.Text (Bytes)
open ReplicaDiff.Json

/-- The first of equal keys, given those that have been seen. -/
def firstsAfter (seen : List String) : List String → List String
  | [] => []
  | key :: rest =>
      if key ∈ seen then firstsAfter seen rest else key :: firstsAfter (key :: seen) rest

/-- The keys without repetitions, each where it comes first. -/
def firsts (keys : List String) : List String := firstsAfter [] keys

/-- Read a JSON list of strings. -/
def parse (content : Bytes) : Except Fault (List String) := readAll (readList readText) content

/-- What loading a list says: that keys were dropped, if there were any. -/
def warnings (path : String) (listed kept : List String) : List Event :=
  if kept.length < listed.length then [.repeatedKeysDropped path (listed.length - kept.length)]
  else []

/-- The keys of the list in a file, and what loading it says. -/
def load (files : Files) (path : String) : Except StartupError (List String × List Event) :=
  match files path with
  | .error cause => .error (.keyListRead path cause)
  | .ok content =>
      match parse content with
      | .error fault => .error (.keyListParse path fault)
      | .ok listed => .ok (firsts listed, warnings path listed (firsts listed))

end ReplicaDiff.KeyList
