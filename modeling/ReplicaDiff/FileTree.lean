/-
# ReplicaDiff.FileTree — files and directories

A tree says what lies at each location.  A path is followed name by name from
the current directory, or from the root: each name but the last must be that of a
directory, an empty name and `.` stay where they are, and `..` goes up.

Reading and writing address one location.  A write that is refused changes
nothing, and one that succeeds changes the entry at that location alone.
-/
import ReplicaDiff.IoError
import ReplicaDiff.Path
import ReplicaDiff.Text.Utf8

namespace ReplicaDiff

set_option autoImplicit false

open ReplicaDiff.Text (Bytes)

/-- What lies at a location. -/
inductive Entry where
  | file (content : Bytes)
  | directory
deriving DecidableEq

/-- The names that lead to an entry, the innermost first; the root has none. -/
abbrev Location := List String

/-- What reading the file at each path gives. -/
abbrev Files := String → Except IoError Bytes

/-- The entries of a file system, and the directory that relative paths start from. -/
structure FileTree where
  entry : Location → Option Entry
  current : Location
  /-- Why a file may not be written at a location, where it may not. -/
  refusal : Location → Option IoError := fun _ => none

namespace FileTree

/-- The most bytes that one name may have. -/
def maxNameLength : Nat := 255

/-- The number of bytes from which on a path is too long. -/
def maxPathLength : Nat := 4096

/-- The directory around a location; the root is around itself. -/
def parent : Location → Location
  | [] => []
  | _ :: outer => outer

/-- Follow the names of a path that must all be directories, and give the last one. -/
def walk (t : FileTree) : Location → List String → Except IoError Location
  | l, [] => .ok l
  | l, name :: names =>
      if name.isEmpty || name = "." then walk t l names
      else if name = ".." then walk t (parent l) names
      else if maxNameLength < name.utf8ByteSize then .error .nameTooLong
      else
        match t.entry (name :: l) with
        | none => .error .missing
        | some (.file _) => .error .notADirectory
        | some .directory => walk t (name :: l) names

/-- Where the last name of a path leads. -/
inductive Target where
  /-- To a directory that is already known. -/
  | directory (location : Location)
  /-- To a name in a directory; `slash` tells whether a separator follows it. -/
  | name (location : Location) (slash : Bool)

/-- The last name of a path and what comes before it; separators at the end are taken off. -/
def splitLast (path : String) : List String × String × Bool :=
  let names := (Path.parts path).reverse
  match names.dropWhile (·.isEmpty) with
  | [] => ([], "", true)
  | last :: before => (before.reverse, last, (names.head?.getD "").isEmpty)

/-- Follow a path up to its last name. -/
def resolve (t : FileTree) (path : String) : Except IoError Target :=
  if path.toList.contains '\x00' then .error .nullInPath
  else if path.isEmpty then .error .missing
  else if maxPathLength ≤ path.utf8ByteSize then .error .nameTooLong
  else do
    let start := if Path.isAbsolute path then [] else t.current
    let (before, last, slash) := splitLast path
    let l ← t.walk start before
    if last.isEmpty || last = "." then .ok (.directory l)
    else if last = ".." then .ok (.directory (parent l))
    else .ok (.name (last :: l) slash)

/-- The entry that a path leads to. -/
def find (t : FileTree) (path : String) : Except IoError Entry := do
  match ← t.resolve path with
  | .directory _ => .ok .directory
  | .name l slash =>
      if maxNameLength < (l.headD "").utf8ByteSize then .error .nameTooLong
      else
        match t.entry l with
        | none => .error .missing
        | some .directory => .ok .directory
        | some (.file content) => if slash then .error .notADirectory else .ok (.file content)

/-- The content of the file that a path leads to. -/
def read (t : FileTree) : Files := fun path => do
  match ← t.find path with
  | .directory => .error .isADirectory
  | .file content => .ok content

/-- The tree in which a location holds an entry. -/
def put (t : FileTree) (l : Location) (e : Entry) : FileTree :=
  { t with entry := fun k => if k = l then some e else t.entry k }

/-- The location that a write to a path would change. -/
def writable (t : FileTree) (path : String) : Except IoError Location := do
  match ← t.resolve path with
  | .directory _ => .error .isADirectory
  | .name l slash =>
      if slash then .error .isADirectory
      else if maxNameLength < (l.headD "").utf8ByteSize then .error .nameTooLong
      else
        match t.entry l with
        | some .directory => .error .isADirectory
        | _ =>
            match t.refusal l with
            | some cause => .error cause
            | none => .ok l

/-- Make the file that a path leads to hold some bytes, and nothing else. -/
def write (t : FileTree) (path : String) (content : Bytes) : Except IoError FileTree := do
  let l ← t.writable path
  .ok (t.put l (.file content))

/-- A tree with nothing but the current directory and the directories around it. -/
def bare (current : Location) : FileTree where
  entry l := if l.isSuffixOf current then some .directory else none
  current := current

end FileTree

end ReplicaDiff
