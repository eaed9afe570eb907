/-
# ReplicaDiff.Main — the program

Reads the files of the disk, lets `ReplicaDiff.CommandLine.Program` decide what
they come to, writes the results, and prints.
-/
import ReplicaDiff.CommandLine.Program

namespace ReplicaDiff.Main

set_option autoImplicit false

open ReplicaDiff.CommandLine
open ReplicaDiff.Text (Bytes)

/-- The number that the system gives as the reason of a failure. -/
def reasonOf : IO.Error → UInt32
  | .alreadyExists _ code _ => code
  | .otherError code _ => code
  | .resourceBusy code _ => code
  | .resourceVanished code _ => code
  | .unsupportedOperation code _ => code
  | .hardwareFault code _ => code
  | .unsatisfiedConstraints code _ => code
  | .illegalOperation code _ => code
  | .protocolError code _ => code
  | .timeExpired code _ => code
  | .interrupted _ code _ => code
  | .noFileOrDirectory _ code _ => code
  | .invalidArgument _ code _ => code
  | .permissionDenied _ code _ => code
  | .resourceExhausted _ code _ => code
  | .inappropriateType _ code _ => code
  | .noSuchThing _ code _ => code
  | .unexpectedEof => 5
  | .userError _ => 5

/-- A number that is given as a negative one of 32 bits, without its sign. -/
def withoutSign (code : UInt32) : UInt32 := if code < 0x80000000 then code else 0 - code

/-- Whether an action on the file of a path succeeds, and what it gives. -/
def attempt {α : Type} (path : String) (action : IO α) : IO (Except IoError α) := do
  if path.toList.contains '\x00' then return .error .nullInPath
  try
    return .ok (← action)
  catch failure =>
    return .error (.system (withoutSign (reasonOf failure)).toNat)

/-- Read some files of the disk. -/
def readFiles (paths : List String) : IO Files := do
  let contents ← paths.mapM fun path => do
    let content ← attempt path do return (← IO.FS.readBinFile path).toList
    return (path, content)
  return fun path => (contents.lookup path).getD (.error .missing)

/-- Write one file of a run to the disk, and tell whether that failed. -/
def writeOne (layout : Output.Layout) (results : Snapshot) (artifact : Output.Artifact) :
    IO (Output.Artifact × Option IoError) := do
  let path := layout.path artifact
  let content : Bytes := artifact.content results
  match ← attempt path (IO.FS.writeBinFile path ⟨content.toArray⟩) with
  | .ok () => return (artifact, none)
  | .error cause => return (artifact, some cause)

/-- The files that a run reads. -/
def runFiles (config : Config) : List String :=
  config.inputKeysPath ::
    [config.source, config.target].filterMap Connector.snapshotFile?

/-- The tree that stands for the disk once nothing more is read from it. -/
def untouched : FileTree := .bare []

/-- Run with the files of the disk. -/
def run (config : Config) : IO Run.Trace := do
  let files ← readFiles (runFiles config)
  match Run.check config .snapshots files with
  | (.refused error, said) => return .refused error said untouched
  | (.brokenOff setup, said) => return .brokenOff config setup said untouched
  | (.verified v, said) => do
      let layout := config.outputLayout
      let attempts ← Output.Artifact.all.mapM (writeOne layout v.tally.results)
      return .ended v said (.ofAttempts layout attempts) untouched

/-- Do what a command line asks for. -/
def perform (a : Arguments) : IO Work := do
  let files ← readFiles (a.choices .configFile).toList
  match a.command with
  | .checkConfig => return ⟨.ofExcept (showConfig files a), [], untouched⟩
  | .run =>
      match resolveValid files a with
      | .error failure => return ⟨.failed failure, [], untouched⟩
      | .ok config => return .ofTrace (← run config)

/-- Print what there is to see at the end, and give the status. -/
def present (o : Ending) : IO UInt32 := do
  for (_, event) in o.events do
    IO.eprintln (o.lineOf event)
  IO.print o.output
  if let some error := o.error then
    IO.eprintln error
  return o.status.toUInt32

end ReplicaDiff.Main

/-- Read the command line and do what it asks for. -/
def main (tokens : List String) : IO UInt32 := do
  match ReplicaDiff.CommandLine.Arguments.read tokens with
  | .error stop => ReplicaDiff.Main.present (stop.ending ReplicaDiff.Main.untouched)
  | .ok a =>
      let environment ← ReplicaDiff.Event.Filter.variableNames.mapM fun name => do
        return (name, ← IO.getEnv name)
      let filter := a.filter fun name => (environment.lookup name).join
      let work ← ReplicaDiff.Main.perform a
      ReplicaDiff.Main.present (work.ending filter a.flags.logJson)
