/-
# ReplicaDiff.Event — what a run says about itself

An event has a level, the part of the program that it comes from, a message, and
fields.  `Event.level`, `Event.target`, `Event.message` and `Event.fields` give
them for each thing that can happen.
-/
import ReplicaDiff.Batch.Error
import ReplicaDiff.Output.Artifact
import ReplicaDiff.Partition
import ReplicaDiff.Retry
import ReplicaDiff.StartupError

namespace ReplicaDiff

set_option autoImplicit false

/-- How important an event is, the most important first. -/
inductive Level where
  | error
  | warn
  | info
  | debug
  | trace
deriving DecidableEq, Inhabited

namespace Level

/-- The place of a level among all, from one. -/
def rank : Level → Nat
  | .error => 1
  | .warn => 2
  | .info => 3
  | .debug => 4
  | .trace => 5

/-- The name of a level. -/
def name : Level → String
  | .error => "ERROR"
  | .warn => "WARN"
  | .info => "INFO"
  | .debug => "DEBUG"
  | .trace => "TRACE"

end Level

/-- The value of a field. -/
inductive FieldValue where
  | number (n : Nat)
  /-- A text that stands for itself. -/
  | shown (text : String)
  /-- A name, which is quoted where fields are listed in a line. -/
  | quoted (text : String)
deriving DecidableEq

/-- Something that happened. -/
inductive Event where
  | workerStarted (worker : Nat) (span : Span)
  | sendingBatch (worker : Nat) (attempt : UInt32) (keys : Nat)
  | backingOff (operation : String) (attempt : UInt32) (delay : Duration) (error : String)
  | batchSkipped (worker keys : Nat) (error : Retry.Exhausted Batch.Error)
  | workerFinished (worker diffs : Nat)
  | repeatedKeysDropped (path : String) (duplicates : Nat)
  | snapshotLoaded (side : Side) (bucket : String) (documents : Nat)
  | connectionFailed (side : Side) (url : String) (error : StartupError)
  | connected (side : Side) (bucket : String)
  | runStarted (keys : Nat) (workers batchSize : UInt64)
  | workersLaunched (workers : Nat)
  /-- The task of a worker ended before the worker had finished. -/
  | workerFailed (worker : Nat)
  | progressed (processed total : UInt64) (rate : Option String)
  | keysSkipped (errors : UInt64)
  | runFinished (processed : UInt64) (diffs errors : Nat)
  | writeFailed (artifact : Output.Artifact) (error : Output.Error)
  | failed (error : String)
deriving DecidableEq

namespace Event

/-- How important an event is. -/
def level : Event → Level
  | workerStarted .. => .debug
  | sendingBatch .. => .trace
  | backingOff .. => .debug
  | batchSkipped .. => .warn
  | workerFinished .. => .debug
  | repeatedKeysDropped .. => .warn
  | snapshotLoaded .. => .info
  | connectionFailed .. => .error
  | connected .. => .debug
  | runStarted .. => .info
  | workersLaunched .. => .debug
  | workerFailed .. => .error
  | progressed .. => .info
  | keysSkipped .. => .warn
  | runFinished .. => .info
  | writeFailed .. => .error
  | failed .. => .error

/-- The part of the program that an event comes from. -/
def target : Event → String
  | workerStarted .. => "xdiff_core::worker"
  | sendingBatch .. => "xdiff_core::worker"
  | backingOff .. => "xdiff_core::retry"
  | batchSkipped .. => "xdiff_core::worker"
  | workerFinished .. => "xdiff_core::worker"
  | repeatedKeysDropped .. => "xdiff_core::keys"
  | snapshotLoaded .. => "xdiff::snapshot"
  | connectionFailed .. => "xdiff_core::differ"
  | connected .. => "xdiff_core::differ"
  | runStarted .. => "xdiff_core::differ"
  | workersLaunched .. => "xdiff_core::differ"
  | workerFailed .. => "xdiff_core::differ"
  | progressed .. => "xdiff_core::progress"
  | keysSkipped .. => "xdiff_core::progress"
  | runFinished .. => "xdiff_core::differ"
  | writeFailed .. => "xdiff_core::output"
  | failed .. => "xdiff"

/-- What an event says. -/
def message : Event → String
  | workerStarted .. => "worker started"
  | sendingBatch .. => "sending batch"
  | backingOff .. => "attempt failed, backing off"
  | batchSkipped .. => "skipped check on batch keys"
  | workerFinished .. => "worker finished"
  | repeatedKeysDropped .. => "dropped repeated keys from key list"
  | snapshotLoaded .. => "loaded bucket snapshot"
  | connectionFailed .. => "connection failed"
  | connected .. => "connected"
  | runStarted .. => "mutation differ starting"
  | workersLaunched .. => "workers launched"
  | workerFailed .. => "worker task failed"
  | progressed processed total rate =>
      "mutation differ processed " ++ toString processed.toNat ++ " keys out of " ++
        toString total.toNat ++ " keys" ++
        match rate with
        | some rate => ", processing rate=" ++ rate ++ " key/sec"
        | none => ""
  | keysSkipped errors => "skipped " ++ toString errors.toNat ++ " keys because of errors"
  | runFinished .. => "mutation differ finished"
  | writeFailed artifact _ => "error writing " ++ artifact.name
  | failed .. => "xdiff failed"

/-- The fields of an event, in the order in which a line lists them. -/
def fields : Event → List (String × FieldValue)
  | workerStarted worker span => [
      ("worker", .number worker), ("start", .number span.start.toNat),
      ("end", .number span.stop.toNat)]
  | sendingBatch worker attempt keys => [
      ("worker", .number worker), ("attempt", .number attempt.toNat), ("keys", .number keys)]
  | backingOff operation attempt delay error => [
      ("operation", .quoted operation), ("attempt", .number attempt.toNat),
      ("delay_ms", .number delay.millis.toNat), ("error", .shown error)]
  | batchSkipped worker keys error => [
      ("worker", .number worker), ("keys", .number keys),
      ("error", .shown (error.message Batch.Error.message))]
  | workerFinished worker diffs => [("worker", .number worker), ("diffs", .number diffs)]
  | repeatedKeysDropped path duplicates => [
      ("path", .shown path), ("duplicates", .number duplicates)]
  | snapshotLoaded side bucket documents => [
      ("side", .shown side.name), ("bucket", .shown bucket), ("documents", .number documents)]
  | connectionFailed side url error => [
      ("side", .shown side.name), ("url", .shown url), ("error", .shown error.message)]
  | connected side bucket => [("side", .shown side.name), ("bucket", .shown bucket)]
  | runStarted keys workers batchSize => [
      ("keys", .number keys), ("workers", .number workers.toNat),
      ("batch_size", .number batchSize.toNat)]
  | workersLaunched workers => [("workers", .number workers)]
  -- The number of the task and the words with which it ended are those of the runtime and of the
  -- build; they are left out.
  | workerFailed worker => [("worker", .number worker), ("error", .shown "task panicked")]
  | progressed processed total _ => [
      ("processed", .number processed.toNat), ("total", .number total.toNat)]
  | keysSkipped errors => [("errors", .number errors.toNat)]
  | runFinished processed diffs errors => [
      ("processed", .number processed.toNat), ("diffs", .number diffs),
      ("errors", .number errors)]
  | writeFailed artifact error => [
      ("artifact", .shown artifact.name), ("error", .shown error.message)]
  | failed error => [("error", .shown error)]

end Event

/-- What an operation says when it is to be repeated after a pause. -/
def Retry.Backoff.event {ε : Type} (describe : ε → String) (b : Backoff ε) : Event :=
  .backingOff b.operation b.attempt b.delay (describe b.error)

/-- The events of one operation and the milliseconds at which they are told. -/
def Retry.Execution.events {ε α : Type} (describe : ε → String) (e : Execution ε α) :
    List (Nat × Event) :=
  e.backoffs.map fun b => (b.1, b.2.event describe)

end ReplicaDiff
