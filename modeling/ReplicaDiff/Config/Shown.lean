/-
# ReplicaDiff.Config.Shown — settings for people to read

Settings are shown as records with named parts.  A password is never shown; its
place is taken by a fixed text.
-/
import ReplicaDiff.Text.Quoted
import ReplicaDiff.Worker

namespace ReplicaDiff

set_option autoImplicit false

/-- A record with named parts; an open one has parts that are not shown. -/
def shownRecord (name : String) (isOpen : Bool) (parts : List (String × String)) : String :=
  name ++ " \x7b " ++ ", ".intercalate (parts.map fun p => p.1 ++ ": " ++ p.2)
    ++ (if isOpen then ", .. \x7d" else " \x7d")

/-- An endpoint for people to read. -/
def Endpoint.shown (e : Endpoint) : String :=
  shownRecord "ClusterEndpoint" false [
    ("url", Text.quoted e.url),
    ("bucket", Text.quoted e.bucket),
    ("username", Text.quoted e.username),
    ("password", Text.quoted redacted)]

/-- Settings for people to read. -/
def Config.shown (c : Config) : String :=
  shownRecord "DifferConfig" false [
    ("source", c.source.shown),
    ("target", c.target.shown),
    ("diff_file_dir", Text.quotedPath c.diffFileDir),
    ("input_diff_keys_file", Text.quoted c.inputDiffKeysFile),
    ("output_diff_keys_file", Text.quoted c.outputDiffKeysFile),
    ("num_workers", toString c.numWorkers.toNat),
    ("batch_size", toString c.batchSize.toNat),
    ("timeout_secs", toString c.timeoutSecs.toNat),
    ("max_send_batch_retries", toString c.maxSendBatchRetries.toNat),
    ("send_batch_retry_interval", c.retryInterval.text),
    ("send_batch_max_backoff", c.maxBackoff.text),
    ("report_interval", c.reportInterval.text)]

/-- A policy for people to read. -/
def Retry.Policy.shown (p : Retry.Policy) : String :=
  shownRecord "RetryPolicy" false [
    ("max_retries", toString p.maxRetries.toNat),
    ("retry_interval", p.interval.text),
    ("backoff_factor", toString p.factor.toNat),
    ("max_backoff", p.maxBackoff.text)]

/-- What a worker needs to know, for people to read. -/
def WorkerSettings.shown (s : WorkerSettings) : String :=
  shownRecord "WorkerSettings" false [
    ("batch_size", toString s.batchSize.toNat),
    ("batch_timeout", s.batchTimeout.text),
    ("retry", s.retry.shown)]

/-- A worker for people to read; its keys are not shown. -/
def Worker.shown (w : Worker) : String :=
  shownRecord "DifferWorker" true [
    ("id", toString w.id),
    ("range", toString w.span.start.toNat ++ ".." ++ toString w.span.stop.toNat),
    ("settings", w.settings.shown)]

/-- A batch for people to read: the number of its keys and its deadline. -/
def Batch.shown (keys : Nat) (timeout : Duration) : String :=
  shownRecord "Batch" true [("keys", toString keys), ("timeout", timeout.text)]

/-- A run that has not begun, for people to read. -/
def Run.shown (config : Config) : String :=
  shownRecord "MutationDiffer" true [("config", config.shown)]

end ReplicaDiff
