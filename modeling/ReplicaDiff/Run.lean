/-
# ReplicaDiff.Run — one run from the key list to the result files

A run loads the key list, opens both stores, lets its workers check the keys
side by side while a reporter tells of their progress, and writes its files.
It fails only before the workers begin; after that, batches that could not be
checked and files that could not be written are part of its summary, and of a
worker that broke off it says that it is lost.

A run with more workers than there can be shares breaks off itself when it shares
the keys out (`Conclusion.brokenOff`).  Nothing in it catches that, and whoever let it
run gets neither a summary nor an error.
-/
import ReplicaDiff.Connector
import ReplicaDiff.KeyList
import ReplicaDiff.Output
import ReplicaDiff.Progress
import ReplicaDiff.Worker

namespace ReplicaDiff.Run

set_option autoImplicit false

/-- What a run needs before its workers can begin. -/
structure Setup where
  keys : List String
  source : Store
  target : Store

/-- Open the store of one side, and tell how it went. -/
def connect (config : Config) (connector : Connector) (files : Files) (side : Side) :
    Except StartupError Store × List Event :=
  let endpoint := config.endpoint side
  match connector files side endpoint with
  | .error error => (.error error, [.connectionFailed side endpoint.url error])
  | .ok connection =>
      (.ok connection.store, connection.events ++ [.connected side endpoint.bucket])

/-- Load the key list and open the source and then the target, up to the first failure. -/
def prepare (config : Config) (connector : Connector) (files : Files) :
    Except StartupError Setup × List Event :=
  match KeyList.load files config.inputKeysPath with
  | .error error => (.error error, [])
  | .ok (keys, loading) =>
      match connect config connector files .source with
      | (.error error, said) => (.error error, loading ++ said)
      | (.ok source, said) =>
          match connect config connector files .target with
          | (.error error, said') => (.error error, loading ++ said ++ said')
          | (.ok target, said') => (.ok ⟨keys, source, target⟩, loading ++ said ++ said')

/-- The shares of the keys of a run, if there can be a list of them. -/
def shares? (config : Config) (keys : List String) : Option (List Span) :=
  balanceLoad config.numWorkers (UInt64.ofNat keys.length)

/-- The workers of a run: one for each share of the keys that is not empty. -/
def workers (config : Config) (keys : List String) : List Worker :=
  ((shares? config keys).getD []).zipIdx.filterMap fun (span, id) =>
    if span.isEmpty then none else some ⟨id, keys, span, config.workerSettings⟩

/-- What the workers have done once all of them have stopped. -/
structure Verified where
  totalKeys : Nat
  /-- The milliseconds that the workers took. -/
  elapsed : Nat
  tally : Tally
  events : List (Nat × Event)
  source : Store
  target : Store

/-- What a reporter notices of a contribution. -/
def notice? : Contribution → Option Progress.Notice
  | .processed count => some (.processed count)
  | .unchecked keys => some (.unchecked (UInt64.ofNat keys.length))
  | .merged _ => none

/-- What the reporter of a run notices: the contributions of the workers, and that they have
finished. -/
def history (timeline : Array (Nat × WorkerEffect)) (finished : Nat) : Progress.History :=
  ((contributionsOf timeline).filterMap fun c => (notice? c.2).map fun n => (c.1, n))
    ++ [(finished, .signal true)]

/-- Events in order of time; of events at one moment, those of the first list come first. -/
def interleave (first second : List (Nat × Event)) : List (Nat × Event) :=
  List.merge first second fun a b => a.1 ≤ b.1

/-- What a run says while it waits for workers, one after the other from some moment on: which of
them are lost. -/
def awaited (timeline : Array (Nat × WorkerEffect)) (moment : Nat) :
    List Worker → List (Nat × Event)
  | [] => []
  | w :: rest =>
      match overAt? timeline w.id with
      | none => awaited timeline moment rest
      | some (stop, lost) =>
          let moment := max moment stop
          (if lost then [(moment, .workerFailed w.id)] else []) ++ awaited timeline moment rest

/-- What is said on the part of the workers of a run: by them, and of those that are lost. -/
def toldOf (team : List Worker) (timeline : Array (Nat × WorkerEffect)) : List (Nat × Event) :=
  interleave (eventsOf timeline) (awaited timeline 0 team)

/-- What the workers of a run have done when their world is over. -/
def Verified.ofWorld (config : Config) (total : Nat) (team : List Worker)
    (world : World Worker.State WorkerEffect) : Verified :=
  let tally := tallyOf world.timeline
  let reporter : Progress.Reporter := ⟨UInt64.ofNat total, config.reportInterval, ⟨0, 0⟩⟩
  let report := reporter.report (history world.timeline world.now) world.now
  { totalKeys := total
    elapsed := world.now
    tally := tally
    events :=
      [(0, .runStarted total config.numWorkers config.batchSize), (0, .workersLaunched team.length)]
      ++ interleave (toldOf team world.timeline) report.events
      ++ [(world.now, .runFinished tally.processed tally.results.diffs.size
            tally.results.keysWithError.length)]
    source := world.source
    target := world.target }

/-- Let the workers of a run check its keys. -/
def verify (config : Config) (setup : Setup) : Verified :=
  let team := workers config setup.keys
  .ofWorld config setup.keys.length team (Worker.runAll setup.source setup.target team)

/-- Outcome of a run that has begun. -/
structure Summary where
  totalKeys : Nat
  keysProcessed : UInt64
  keysWithErrors : UInt64
  results : Snapshot
  output : Output.Report
deriving DecidableEq

/-- The summary of what the workers have done and what became of the files. -/
def summarise (v : Verified) (output : Output.Report) : Summary :=
  ⟨v.totalKeys, v.tally.processed, v.tally.errors, v.tally.results, output⟩

/-- How a run ends. -/
inductive Conclusion where
  | ok (summary : Summary)
  /-- It could not begin. -/
  | error (error : StartupError)
  /-- It broke off before its workers began. -/
  | brokenOff
deriving DecidableEq

/-- All that a run leaves behind: its outcome, the milliseconds that it took, what it said, the
files, and the stores, if they were opened. -/
structure Trace where
  outcome : Conclusion
  elapsed : Nat
  events : List (Nat × Event)
  tree : FileTree
  stores : Option (Store × Store)

/-- What a run has come to before it writes its files. -/
inductive Checked where
  | refused (error : StartupError)
  | brokenOff (setup : Setup)
  | verified (v : Verified)

/-- All that a run does before it writes its files. -/
def check (config : Config) (connector : Connector) (files : Files) : Checked × List Event :=
  match prepare config connector files with
  | (.error error, said) => (.refused error, said)
  | (.ok setup, said) =>
      match shares? config setup.keys with
      | none => (.brokenOff setup, said)
      | some _ => (.verified (verify config setup), said)

/-- A run that did not begin. -/
def Trace.refused (error : StartupError) (said : List Event) (tree : FileTree) : Trace :=
  ⟨.error error, 0, said.map fun e => (0, e), tree, none⟩

/-- A run that broke off when it shared its keys out. -/
def Trace.brokenOff (config : Config) (setup : Setup) (said : List Event) (tree : FileTree) : Trace :=
  ⟨.brokenOff, 0,
    (said.map fun e => (0, e)) ++
      [(0, .runStarted setup.keys.length config.numWorkers config.batchSize)],
    tree, some (setup.source, setup.target)⟩

/-- A run that has attempted its files. -/
def Trace.ended (v : Verified) (said : List Event) (report : Output.Report) (tree : FileTree) :
    Trace :=
  ⟨.ok (summarise v report), v.elapsed,
    (said.map fun e => (0, e)) ++ v.events ++ report.events.map fun e => (v.elapsed, e),
    tree, some (v.source, v.target)⟩

/-- Run with a configuration that has been found valid. -/
def execute (config : Config) (connector : Connector) (tree : FileTree) : Trace :=
  match check config connector tree.read with
  | (.refused error, said) => .refused error said tree
  | (.brokenOff setup, said) => .brokenOff config setup said tree
  | (.verified v, said) =>
      let (tree, report) := Output.writeAll tree config.outputLayout v.tally.results
      .ended v said report tree

/-- Refuse a configuration with which a run cannot begin. -/
def accept (config : Config) : Except StartupError Config :=
  match config.validate with
  | .ok () => .ok config
  | .error reason => .error (.invalidConfig reason)

end ReplicaDiff.Run
