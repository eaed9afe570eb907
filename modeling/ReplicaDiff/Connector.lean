/-
# ReplicaDiff.Connector — opening the two stores of a run

A connector opens the store of one side.  There are two: one that hands out
stores that are already there, and one that reads a snapshot of a bucket from a
file.
-/
import ReplicaDiff.Config
import ReplicaDiff.Document.Json
import ReplicaDiff.Event
import ReplicaDiff.FileTree
import ReplicaDiff.Store.Bucket

namespace ReplicaDiff

set_option autoImplicit false

open ReplicaDiff.Text (Bytes)
open ReplicaDiff.Json

/-- A store that has been opened, and what opening it says. -/
structure Connection where
  store : Store
  events : List Event

/-- Opens the store of one side. -/
abbrev Connector := Files → Side → Endpoint → Except StartupError Connection

namespace Connector

/-- Hands out stores that are already there, but refuses one side, if there is a side to refuse. -/
def ofStores (source target : Store) (refused : Option Side) : Connector :=
  fun _ side endpoint =>
    if refused = some side then .error (.connect side endpoint.url "authentication failed")
    else
      match side with
      | .source => .ok ⟨source, []⟩
      | .target => .ok ⟨target, []⟩

/-- How the url of a snapshot begins. -/
def fileScheme : String := "file://"

/-- What follows the scheme of a url, if that is the scheme of snapshots. -/
def snapshotDirectory? (url : String) : Option String :=
  if fileScheme.toList.isPrefixOf url.toList then
    some (String.ofList (url.toList.drop fileScheme.length))
  else none

/-- The path of a snapshot in a directory. -/
def snapshotPath (dir bucket : String) : String := Path.join dir (bucket ++ ".json")

/-- The file that holds the snapshot of an endpoint, if its url has the scheme of snapshots. -/
def snapshotFile? (e : Endpoint) : Option String :=
  (snapshotDirectory? e.url).map fun dir => snapshotPath dir e.bucket

/-- Read a snapshot: an object of keys and documents. -/
def parseSnapshot (content : Bytes) : Except Fault (KeyMap Document) :=
  readAll (readMap Document.read) content

/-- Reads the snapshot of a bucket from a file named for it. -/
def snapshots : Connector := fun files side endpoint =>
  match snapshotFile? endpoint with
  | none => .error (.connect side endpoint.url "unsupported scheme, expected file://")
  | some path =>
      match files path with
      | .error cause =>
          .error (.connect side endpoint.url ("cannot open " ++ path ++ ": " ++ cause.message))
      | .ok content =>
          match parseSnapshot content with
          | .error fault =>
              .error (.connect side endpoint.url ("bad snapshot " ++ path ++ ": " ++ fault.message))
          | .ok documents =>
              .ok ⟨Bucket.store ⟨documents⟩,
                [.snapshotLoaded side endpoint.bucket documents.size]⟩

end Connector

end ReplicaDiff
