/-
# ReplicaDiff.Output — writing the files of a run

Each file is attempted on its own.  One that could not be written is reported
and keeps no other from being written.
-/
import ReplicaDiff.Config
import ReplicaDiff.Event
import ReplicaDiff.FileTree

namespace ReplicaDiff

set_option autoImplicit false

open ReplicaDiff.Text (Bytes)

/-- Where the files of a run go. -/
def Config.outputLayout (c : Config) : Output.Layout := ⟨c.diffFileDir, c.outputDiffKeysFile⟩

namespace Output

/-- What became of the files. -/
structure Report where
  written : List String
  failures : List (Artifact × Error)
deriving DecidableEq, Inhabited

namespace Report

/-- Whether every file was written. -/
def isComplete (r : Report) : Bool := r.failures.isEmpty

/-- The report with one more attempt. -/
def record (r : Report) (layout : Layout) (artifact : Artifact) : Option IoError → Report
  | none => { r with written := r.written ++ [layout.path artifact] }
  | some cause =>
      { r with failures := r.failures ++ [(artifact, ⟨layout.path artifact, cause⟩)] }

/-- The report of several attempts, in order. -/
def ofAttempts (layout : Layout) (attempts : List (Artifact × Option IoError)) : Report :=
  attempts.foldl (fun r a => r.record layout a.1 a.2) ⟨[], []⟩

/-- What is said of the failures of a report. -/
def events (r : Report) : List Event := r.failures.map fun f => .writeFailed f.1 f.2

end Report

/-- Write one file. -/
def writeOne (tree : FileTree) (layout : Layout) (results : Snapshot) (artifact : Artifact) :
    FileTree × Option IoError :=
  match tree.write (layout.path artifact) (artifact.content results) with
  | .ok tree => (tree, none)
  | .error cause => (tree, some cause)

/-- Write several files one after the other, and tell what became of each. -/
def writeEach (layout : Layout) (results : Snapshot) :
    FileTree → List Artifact → FileTree × List (Artifact × Option IoError)
  | tree, [] => (tree, [])
  | tree, artifact :: rest =>
      let (tree, failure) := writeOne tree layout results artifact
      let (tree, attempts) := writeEach layout results tree rest
      (tree, (artifact, failure) :: attempts)

/-- Write the files of a run. -/
def writeAll (tree : FileTree) (layout : Layout) (results : Snapshot) : FileTree × Report :=
  let (tree, attempts) := writeEach layout results tree Artifact.all
  (tree, .ofAttempts layout attempts)

end Output

end ReplicaDiff
