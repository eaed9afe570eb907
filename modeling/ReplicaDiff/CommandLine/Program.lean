/-
# ReplicaDiff.CommandLine.Program — from a command line to what it does

`Program.execute` gives all that can be seen of the program: what it prints, what
it tells of its work, the status with which it ends, and the files.
-/
import ReplicaDiff.CommandLine.Arguments
import ReplicaDiff.CommandLine.Help
import ReplicaDiff.Config.File
import ReplicaDiff.Event.Filter
import ReplicaDiff.Event.Line
import ReplicaDiff.Run

namespace ReplicaDiff.CommandLine

set_option autoImplicit false

/-- The level of what is told, as far as flags decide; `verbose` goes before `quiet`. -/
def Flags.level (f : Flags) : Level :=
  if f.verbose then .debug else if f.quiet then .error else .info

/-- Why the work was not done. -/
inductive Failure where
  | configFile (error : Config.File.Error)
  /-- A run cannot begin with these settings. -/
  | refused (error : StartupError)
  | notBegun (error : StartupError)
  /-- The settings cannot be written as TOML. -/
  | notRendered
deriving DecidableEq

namespace Failure

/-- The text of an error, and that of the error behind it. -/
def startupChain (e : StartupError) : List String := e.message :: e.cause?.toList

/-- The texts of a failure, from what was tried to why it failed.  Why settings cannot be written is
told in the words of this library, which stand for those of whatever writes the TOML. -/
def chain : Failure → List String
  | .configFile error => error.chain
  | .refused error => startupChain error
  | .notBegun error => "mutation differ run failed" :: startupChain error
  | .notRendered => ["failed to render configuration", "a number is too large for TOML"]

/-- What is told of a failure. -/
def event (f : Failure) : Event := .failed (f.chain.headD "")

/-- What is printed of a failure. -/
def report (f : Failure) : String := "error: " ++ ": ".intercalate f.chain

end Failure

/-- The settings with every password out of sight; an empty one stays, for it hides nothing. -/
def withoutPasswords (c : Config) : Config :=
  let hide (e : Endpoint) : Endpoint :=
    if e.password.isEmpty then e else { e with password := redacted }
  { c with source := hide c.source, target := hide c.target }

/-- The settings that a command line asks for. -/
def resolve (files : Files) (a : Arguments) : Except Failure Config :=
  match Config.File.load files (a.choices .configFile) with
  | .error error => .error (.configFile error)
  | .ok base => .ok (a.config base)

/-- The settings that a command line asks for, if a run can begin with them. -/
def resolveValid (files : Files) (a : Arguments) : Except Failure Config := do
  match Run.accept (← resolve files a) with
  | .error error => .error (.refused error)
  | .ok config => .ok config

/-- The settings as `check-config` shows them. -/
def showConfig (files : Files) (a : Arguments) : Except Failure String := do
  match Config.toToml? (withoutPasswords (← resolveValid files a)) with
  | none => .error .notRendered
  | some text => .ok (text ++ "\n")

/-- The lines that tell how a run ended. -/
def summaryLines (s : Run.Summary) : List String :=
  let count (label : String) (n : Nat) : String := "  " ++ label ++ ": " ++ toString n
  ["Mutation Diff Summary:",
    count "Keys" s.totalKeys,
    count "Processed" s.keysProcessed.toNat,
    count "Missing From Source" s.results.diffs.missingFromSource.size,
    count "Missing From Target" s.results.diffs.missingFromTarget.size,
    count "Mismatched" s.results.diffs.mismatch.size,
    count "Keys With Errors" s.keysWithErrors.toNat]
  ++ s.output.written.map (fun path => "  Wrote: " ++ path)
  ++ s.output.failures.map fun f => "  Failed to write " ++ f.1.name ++ ": " ++ f.2.message

/-- Lines as one text. -/
def unlines (lines : List String) : String := String.join (lines.map (· ++ "\n"))

/-- The status of a program that breaks off: that of one whose main thread panicked.  A program that
was built to abort on a panic has none, as a signal ends it, and it does not outlive a lost worker
either. -/
def brokenOffStatus : UInt8 := 101

/-- How the program ends, as far as it can be seen; what the runtime itself prints of a program that
breaks off is left out. -/
structure Ending where
  status : UInt8
  output : String
  /-- What is printed of a failure. -/
  error : Option String
  /-- What is told, with the milliseconds since the work began. -/
  events : List (Nat × Event)
  /-- Whether events are told as JSON. -/
  asJson : Bool
  tree : FileTree

/-- What work comes to. -/
inductive Result where
  | printed (output : String)
  | failed (failure : Failure)
  | brokenOff

/-- Work that prints something or fails. -/
def Result.ofExcept : Except Failure String → Result
  | .ok output => .printed output
  | .error failure => .failed failure

/-- What a run comes to. -/
def Result.ofRun : Run.Conclusion → Result
  | .ok summary => .printed (unlines (summaryLines summary))
  | .error error => .failed (.notBegun error)
  | .brokenOff => .brokenOff

/-- Work that has come to an end: its result, what it told, and the files. -/
structure Work where
  result : Result
  events : List (Nat × Event)
  tree : FileTree

/-- The work of a run that has come to an end. -/
def Work.ofTrace (t : Run.Trace) : Work := ⟨.ofRun t.outcome, t.events, t.tree⟩

/-- Do what a command line asks for. -/
def Arguments.perform (a : Arguments) (tree : FileTree) : Work :=
  match a.command with
  | .checkConfig => ⟨.ofExcept (showConfig tree.read a), [], tree⟩
  | .run =>
      match resolveValid tree.read a with
      | .error failure => ⟨.failed failure, [], tree⟩
      | .ok config => .ofTrace (Run.execute config .snapshots tree)

/-- The filter for what the work tells. -/
def Arguments.filter (a : Arguments) (environment : String → Option String) : Event.Filter :=
  .choose environment a.flags.level

/-- How the program ends when its work has come to an end. -/
def Work.ending (w : Work) (filter : Event.Filter) (asJson : Bool) : Ending :=
  let told (events : List (Nat × Event)) : List (Nat × Event) :=
    events.filter fun e => filter.allows e.2
  match w.result with
  | .printed output => ⟨0, output, none, told w.events, asJson, w.tree⟩
  | .brokenOff => ⟨brokenOffStatus, "", none, told w.events, asJson, w.tree⟩
  | .failed failure =>
      let last := (w.events.getLast?.map (·.1)).getD 0
      ⟨1, "", some failure.report, told (w.events ++ [(last, failure.event)]), asJson, w.tree⟩

/-- How the program ends where no work is asked for. -/
def Stop.ending (s : Stop) (tree : FileTree) : Ending :=
  match s with
  | .help topic => ⟨0, unlines topic.lines, none, [], false, tree⟩
  | .version => ⟨0, unlines [versionLine], none, [], false, tree⟩
  | .misuse error => ⟨2, "", some ("error: " ++ error.message), [], false, tree⟩

/-- Read a command line and do what it asks for. -/
def execute (environment : String → Option String) (tree : FileTree) (tokens : List String) :
    Ending :=
  match Arguments.read tokens with
  | .error stop => stop.ending tree
  | .ok a => (a.perform tree).ending (a.filter environment) a.flags.logJson

/-- A told event as one line. -/
def Ending.lineOf (o : Ending) (e : Event) : String :=
  if o.asJson then (Text.ofUtf8? e.jsonLine).getD "" else e.line

end ReplicaDiff.CommandLine
