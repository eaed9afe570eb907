/-
# ReplicaDiff.Config.Json — settings as JSON

An object with one member for each setting, all of which may be left out.
Spans of time are whole milliseconds.
-/
import ReplicaDiff.Config
import ReplicaDiff.Json.Shape
import ReplicaDiff.Json.Writer

namespace ReplicaDiff

set_option autoImplicit false

open ReplicaDiff.Text (Bytes)
open ReplicaDiff.Json

namespace Endpoint

/-- A field that holds a string. -/
def textField (name : String) (set : Endpoint → String → Endpoint) : RecordField Endpoint where
  name := name
  read e input := do
    let (text, rest) ← readText input
    .ok (set e text, rest)

/-- The fields of an endpoint. -/
def fields : List (RecordField Endpoint) := [
  textField "url" fun e url => { e with url },
  textField "bucket" fun e bucket => { e with bucket },
  textField "username" fun e username => { e with username },
  textField "password" fun e password => { e with password }]

/-- Read an endpoint. -/
def read : Reader Endpoint := readRecord fields false {}

/-- The JSON of an endpoint. -/
def write (e : Endpoint) : Bytes :=
  writeObject [
    ("url", writeText e.url),
    ("bucket", writeText e.bucket),
    ("username", writeText e.username),
    ("password", writeText e.password)]

end Endpoint

namespace Config

/-- A field that is read by a reader of its own. -/
def field {α : Type} (name : String) (read : Reader α) (set : Config → α → Config) :
    RecordField Config where
  name := name
  read c input := do
    let (value, rest) ← read input
    .ok (set c value, rest)

/-- Read an integer of 64 bits. -/
def readWord : Reader UInt64 := fun input => do
  let (n, rest) ← readUnsigned maxWord input
  .ok (UInt64.ofNat n, rest)

/-- Read an integer of 32 bits. -/
def readHalfWord : Reader UInt32 := fun input => do
  let (n, rest) ← readUnsigned 4294967295 input
  .ok (UInt32.ofNat n, rest)

/-- Read a span of whole milliseconds. -/
def readMillis : Reader Duration := fun input => do
  let (ms, rest) ← readWord input
  .ok (.ofMillis ms, rest)

/-- The settings, in order. -/
def fields : List (RecordField Config) := [
  field "source" Endpoint.read fun c source => { c with source },
  field "target" Endpoint.read fun c target => { c with target },
  field "diff_file_dir" readText fun c diffFileDir => { c with diffFileDir },
  field "input_diff_keys_file" readText fun c inputDiffKeysFile => { c with inputDiffKeysFile },
  field "output_diff_keys_file" readText fun c outputDiffKeysFile => { c with outputDiffKeysFile },
  field "num_workers" readWord fun c numWorkers => { c with numWorkers },
  field "batch_size" readWord fun c batchSize => { c with batchSize },
  field "timeout_secs" readWord fun c timeoutSecs => { c with timeoutSecs },
  field "max_send_batch_retries" readHalfWord fun c maxSendBatchRetries =>
    { c with maxSendBatchRetries },
  field "send_batch_retry_interval_ms" readMillis fun c retryInterval => { c with retryInterval },
  field "send_batch_max_backoff_ms" readMillis fun c maxBackoff => { c with maxBackoff },
  field "report_interval_ms" readMillis fun c reportInterval => { c with reportInterval }]

/-- Read settings. -/
def read : Reader Config := readRecord fields false {}

/-- The members of the JSON of some settings. -/
def members (c : Config) : List (String × Bytes) := [
  ("source", c.source.write),
  ("target", c.target.write),
  ("diff_file_dir", writeText c.diffFileDir),
  ("input_diff_keys_file", writeText c.inputDiffKeysFile),
  ("output_diff_keys_file", writeText c.outputDiffKeysFile),
  ("num_workers", writeNat c.numWorkers.toNat),
  ("batch_size", writeNat c.batchSize.toNat),
  ("timeout_secs", writeNat c.timeoutSecs.toNat),
  ("max_send_batch_retries", writeNat c.maxSendBatchRetries.toNat),
  ("send_batch_retry_interval_ms", writeNat c.retryInterval.millis.toNat),
  ("send_batch_max_backoff_ms", writeNat c.maxBackoff.millis.toNat),
  ("report_interval_ms", writeNat c.reportInterval.millis.toNat)]

/-- The JSON of some settings. -/
def write (c : Config) : Bytes := writeObject c.members

end Config

end ReplicaDiff
