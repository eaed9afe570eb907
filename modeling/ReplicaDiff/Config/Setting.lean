/-
# ReplicaDiff.Config.Setting — the settings of a run, one by one

A `Setting` names one place of a configuration, and its kind gives the type of
what that place holds.  `Config.get` and `Config.set` address one place: what was
set is got back, and every other place keeps what it held.
-/
import ReplicaDiff.Config

namespace ReplicaDiff

set_option autoImplicit false

/-- The parts of an endpoint. -/
inductive Endpoint.Part where
  | url
  | bucket
  | username
  | password
deriving DecidableEq

namespace Endpoint

/-- The parts of an endpoint, in order. -/
def Part.all : List Part := [.url, .bucket, .username, .password]

/-- What a part is called. -/
def Part.name : Part → String
  | .url => "url"
  | .bucket => "bucket"
  | .username => "username"
  | .password => "password"

/-- What a part holds. -/
def get (e : Endpoint) : Part → String
  | .url => e.url
  | .bucket => e.bucket
  | .username => e.username
  | .password => e.password

/-- The endpoint in which a part holds something else. -/
def set (e : Endpoint) (part : Part) (value : String) : Endpoint :=
  match part with
  | .url => { e with url := value }
  | .bucket => { e with bucket := value }
  | .username => { e with username := value }
  | .password => { e with password := value }

theorem get_set_self (e : Endpoint) (p : Part) (v : String) : (e.set p v).get p = v := by
  cases p <;> rfl

theorem get_set_of_ne (e : Endpoint) {p q : Part} (v : String) (h : q ≠ p) :
    (e.set p v).get q = e.get q := by
  cases p <;> cases q <;> first | rfl | exact absurd rfl h

/-- Two endpoints with the same parts are the same. -/
theorem ext_get {e e' : Endpoint} (h : ∀ p, e.get p = e'.get p) : e = e' := by
  have hu := h .url
  have hb := h .bucket
  have hn := h .username
  have hp := h .password
  cases e
  cases e'
  simp only [get] at hu hb hn hp
  simp only [hu, hb, hn, hp]

end Endpoint

/-- What kind of value a setting takes. -/
inductive Setting.Kind where
  | text
  /-- The path of a file or a directory. -/
  | path
  | count
  /-- How often something is repeated. -/
  | repeats
  /-- A span of time, given in milliseconds. -/
  | millis
deriving DecidableEq

/-- The values of a kind. -/
@[reducible] def Setting.Kind.Value : Setting.Kind → Type
  | .text => String
  | .path => String
  | .count => UInt64
  | .repeats => UInt32
  | .millis => Duration

/-- The settings of a run. -/
inductive Setting where
  | endpoint (side : Side) (part : Endpoint.Part)
  | diffFileDir
  | inputDiffKeysFile
  | outputDiffKeysFile
  | numWorkers
  | batchSize
  | timeoutSecs
  | maxSendBatchRetries
  | retryInterval
  | maxBackoff
  | reportInterval
deriving DecidableEq

namespace Setting

/-- The settings that are not part of an endpoint, in order. -/
def ofRun : List Setting := [
  .diffFileDir, .inputDiffKeysFile, .outputDiffKeysFile, .numWorkers, .batchSize, .timeoutSecs,
  .maxSendBatchRetries, .retryInterval, .maxBackoff, .reportInterval]

/-- The settings of the endpoint of one side, in order. -/
def ofSide (side : Side) : List Setting := Endpoint.Part.all.map fun part => .endpoint side part

/-- Every setting. -/
def all : List Setting := ofSide .source ++ ofSide .target ++ ofRun

theorem mem_all (s : Setting) : s ∈ all := by
  rcases s with ⟨_ | _, _ | _ | _ | _⟩ | _ | _ | _ | _ | _ | _ | _ | _ | _ | _ <;> decide

theorem endpoint_notMem_ofRun (side : Side) (part : Endpoint.Part) : .endpoint side part ∉ ofRun := by
  cases side <;> cases part <;> decide

/-- The kind of a setting. -/
@[reducible] def kind : Setting → Kind
  | .endpoint _ _ => .text
  | .diffFileDir => .path
  | .inputDiffKeysFile => .text
  | .outputDiffKeysFile => .text
  | .numWorkers => .count
  | .batchSize => .count
  | .timeoutSecs => .count
  | .maxSendBatchRetries => .repeats
  | .retryInterval => .millis
  | .maxBackoff => .millis
  | .reportInterval => .millis

/-- The values that a setting can have. -/
abbrev Value (s : Setting) : Type := s.kind.Value

/-- What a setting is called in a configuration file. -/
def key : Setting → String
  | .endpoint _ part => part.name
  | .diffFileDir => "diff_file_dir"
  | .inputDiffKeysFile => "input_diff_keys_file"
  | .outputDiffKeysFile => "output_diff_keys_file"
  | .numWorkers => "num_workers"
  | .batchSize => "batch_size"
  | .timeoutSecs => "timeout_secs"
  | .maxSendBatchRetries => "max_send_batch_retries"
  | .retryInterval => "send_batch_retry_interval_ms"
  | .maxBackoff => "send_batch_max_backoff_ms"
  | .reportInterval => "report_interval_ms"

end Setting

namespace Config

/-- The configuration in which the endpoint of one side is another. -/
def setEndpoint (c : Config) (side : Side) (e : Endpoint) : Config :=
  match side with
  | .source => { c with source := e }
  | .target => { c with target := e }

/-- What a setting is. -/
def get (c : Config) : (s : Setting) → s.Value
  | .endpoint side part => (c.endpoint side).get part
  | .diffFileDir => c.diffFileDir
  | .inputDiffKeysFile => c.inputDiffKeysFile
  | .outputDiffKeysFile => c.outputDiffKeysFile
  | .numWorkers => c.numWorkers
  | .batchSize => c.batchSize
  | .timeoutSecs => c.timeoutSecs
  | .maxSendBatchRetries => c.maxSendBatchRetries
  | .retryInterval => c.retryInterval
  | .maxBackoff => c.maxBackoff
  | .reportInterval => c.reportInterval

/-- The configuration in which one setting is another. -/
def set (c : Config) : (s : Setting) → s.Value → Config
  | .endpoint side part, value => c.setEndpoint side ((c.endpoint side).set part value)
  | .diffFileDir, value => { c with diffFileDir := value }
  | .inputDiffKeysFile, value => { c with inputDiffKeysFile := value }
  | .outputDiffKeysFile, value => { c with outputDiffKeysFile := value }
  | .numWorkers, value => { c with numWorkers := value }
  | .batchSize, value => { c with batchSize := value }
  | .timeoutSecs, value => { c with timeoutSecs := value }
  | .maxSendBatchRetries, value => { c with maxSendBatchRetries := value }
  | .retryInterval, value => { c with retryInterval := value }
  | .maxBackoff, value => { c with maxBackoff := value }
  | .reportInterval, value => { c with reportInterval := value }

theorem get_set_self (c : Config) (s : Setting) (v : s.Value) : (c.set s v).get s = v := by
  rcases s with ⟨_ | _, p⟩ | _ | _ | _ | _ | _ | _ | _ | _ | _ | _
  case endpoint.source => exact Endpoint.get_set_self _ p v
  case endpoint.target => exact Endpoint.get_set_self _ p v
  all_goals rfl

theorem get_set_of_ne (c : Config) {s t : Setting} (v : s.Value) (h : t ≠ s) :
    (c.set s v).get t = c.get t := by
  cases s with
  | endpoint side p =>
      cases t with
      | endpoint side' q =>
          cases side <;> cases side'
          case source.target => rfl
          case target.source => rfl
          all_goals exact Endpoint.get_set_of_ne _ v fun hq => h (by rw [hq])
      | _ => cases side <;> rfl
  | _ => cases t <;> first | rfl | exact absurd rfl h

/-- A setting that is not part of an endpoint is not changed with an endpoint. -/
theorem get_setEndpoint_of_run {s : Setting} (known : s ∈ Setting.ofRun) (c : Config) (side : Side)
    (e : Endpoint) : (c.setEndpoint side e).get s = c.get s := by
  cases s with
  | endpoint side part => exact absurd known (Setting.endpoint_notMem_ofRun side part)
  | _ => cases side <;> rfl

/-- Two configurations with the same settings are the same. -/
theorem ext_get {c d : Config} (h : ∀ s, c.get s = d.get s) : c = d := by
  have side (s : Side) : c.endpoint s = d.endpoint s :=
    Endpoint.ext_get fun p => h (.endpoint s p)
  have hs := side .source
  have ht := side .target
  have h1 := h .diffFileDir
  have h2 := h .inputDiffKeysFile
  have h3 := h .outputDiffKeysFile
  have h4 := h .numWorkers
  have h5 := h .batchSize
  have h6 := h .timeoutSecs
  have h7 := h .maxSendBatchRetries
  have h8 := h .retryInterval
  have h9 := h .maxBackoff
  have h10 := h .reportInterval
  simp only [get, endpoint] at hs ht h1 h2 h3 h4 h5 h6 h7 h8 h9 h10
  cases c
  cases d
  simp_all

end Config

end ReplicaDiff
