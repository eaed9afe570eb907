/-
# ReplicaDiff.Config — the settings of a run

Every setting has a default.  `validate` names the first setting, in a fixed
order, with which a run cannot begin.
-/
import ReplicaDiff.Document
import ReplicaDiff.Path
import ReplicaDiff.Retry
import ReplicaDiff.Text.Blank

namespace ReplicaDiff

set_option autoImplicit false

/-- Where one replica is reached. -/
structure Endpoint where
  url : String := ""
  bucket : String := ""
  username : String := ""
  password : String := ""
deriving DecidableEq, Inhabited

/-- What takes the place of a password that is not to be shown. -/
def redacted : String := "<redacted>"

/-- The settings of a run. -/
structure Config where
  source : Endpoint := {}
  target : Endpoint := {}
  diffFileDir : String := "."
  inputDiffKeysFile : String := "diffKeys"
  outputDiffKeysFile : String := "mutationDiffKeys"
  numWorkers : UInt64 := 10
  batchSize : UInt64 := 100
  timeoutSecs : UInt64 := 10
  maxSendBatchRetries : UInt32 := 5
  retryInterval : Duration := .ofMillis 500
  maxBackoff : Duration := .ofMillis 5000
  reportInterval : Duration := .ofMillis 5000
deriving DecidableEq, Inhabited

/-- What a worker needs to know: the shape of its batches and how it repeats them. -/
structure WorkerSettings where
  batchSize : UInt64
  batchTimeout : Duration
  retry : Retry.Policy
deriving DecidableEq, Inhabited

/-- The factor by which the pause between two attempts at a batch grows. -/
def batchBackoffFactor : UInt32 := 2

namespace Config

/-- Refuse an endpoint that is not filled in. -/
def validateEndpoint (name : String) (e : Endpoint) : Except String Unit :=
  if Text.isBlankText e.url then .error (name ++ " url is empty")
  else if Text.isBlankText e.bucket then .error (name ++ " bucket is empty")
  else .ok ()

/-- Refuse settings with which a run cannot begin, for the reason that comes first. -/
def validate (c : Config) : Except String Unit := do
  validateEndpoint "source" c.source
  validateEndpoint "target" c.target
  if c.inputDiffKeysFile.isEmpty || c.outputDiffKeysFile.isEmpty then
    .error "key file names must not be empty"
  else if c.numWorkers = 0 then .error "num_workers must be at least 1"
  else if c.batchSize = 0 then .error "batch_size must be at least 1"
  else if c.timeoutSecs = 0 then .error "timeout_secs must be at least 1"
  else if c.maxBackoff < c.retryInterval then
    .error "send_batch_max_backoff must not be below send_batch_retry_interval"
  else if c.reportInterval.isZero then .error "report interval must be non-zero"
  else .ok ()

/-- The path of the list of candidate keys. -/
def inputKeysPath (c : Config) : String := Path.join c.diffFileDir c.inputDiffKeysFile

/-- How often a batch is repeated, and with which pauses. -/
def batchPolicy (c : Config) : Retry.Policy :=
  ⟨c.maxSendBatchRetries, c.retryInterval, batchBackoffFactor, c.maxBackoff⟩

/-- What the workers of a run need to know. -/
def workerSettings (c : Config) : WorkerSettings :=
  ⟨c.batchSize, .ofSecs c.timeoutSecs, c.batchPolicy⟩

/-- Settings for two stores in memory, with short deadlines and pauses. -/
def inMemory (dir : String) : Config where
  source := { url := "mem://source", bucket := "bucket" }
  target := { url := "mem://target", bucket := "bucket" }
  diffFileDir := dir
  numWorkers := 2
  batchSize := 2
  timeoutSecs := 1
  maxSendBatchRetries := 3
  retryInterval := .ofMillis 10
  maxBackoff := .ofMillis 40
  reportInterval := .ofMillis 100

/-- The endpoint of one side. -/
def endpoint (c : Config) : Side → Endpoint
  | .source => c.source
  | .target => c.target

end Config

end ReplicaDiff
