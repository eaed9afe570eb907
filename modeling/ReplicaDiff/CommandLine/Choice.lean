/-
# ReplicaDiff.CommandLine.Choice — what a command line can give

A command line names a command, raises flags, and gives values to options.  There
is one option for the configuration file and one for each setting, and the kind of
a setting decides which texts its option takes.
-/
import ReplicaDiff.Config.Overrides
import ReplicaDiff.Decimal.Natural

namespace ReplicaDiff.CommandLine

set_option autoImplicit false

/-- The work that can be asked for. -/
inductive Command where
  | run
  /-- Check the settings of a run, and show them. -/
  | checkConfig
deriving DecidableEq

namespace Command

/-- Every command. -/
def all : List Command := [.run, .checkConfig]

/-- What a command is called. -/
def name : Command → String
  | .run => "run"
  | .checkConfig => "check-config"

/-- The command of a name. -/
def ofName? (name : String) : Option Command := all.find? (·.name = name)

end Command

/-- What can be switched on. -/
inductive Flag where
  | verbose
  | quiet
  | logJson
deriving DecidableEq

/-- The flags that are raised. -/
structure Flags where
  verbose : Bool := false
  quiet : Bool := false
  logJson : Bool := false
deriving DecidableEq

namespace Flag

/-- Every flag. -/
def all : List Flag := [.verbose, .quiet, .logJson]

/-- What follows two hyphens to raise a flag. -/
def long : Flag → String
  | .verbose => "verbose"
  | .quiet => "quiet"
  | .logJson => "log-json"

/-- What follows one hyphen to raise a flag. -/
def short? : Flag → Option Char
  | .verbose => some 'v'
  | .quiet => some 'q'
  | .logJson => none

end Flag

namespace Flags

/-- Whether a flag is raised. -/
def has (f : Flags) : Flag → Bool
  | .verbose => f.verbose
  | .quiet => f.quiet
  | .logJson => f.logJson

/-- Raise a flag. -/
def raise (f : Flags) : Flag → Flags
  | .verbose => { f with verbose := true }
  | .quiet => { f with quiet := true }
  | .logJson => { f with logJson := true }

/-- The flags that are raised here or there. -/
def union (f g : Flags) : Flags :=
  ⟨f.verbose || g.verbose, f.quiet || g.quiet, f.logJson || g.logJson⟩

end Flags

/-- The options that take a value. -/
inductive Choice where
  | configFile
  | setting (s : Setting)
deriving DecidableEq

namespace Choice

/-- Every option. -/
def all : List Choice := .configFile :: Setting.all.map .setting

/-- The kind of value that an option takes. -/
@[reducible] def kind : Choice → Setting.Kind
  | .configFile => .path
  | .setting s => s.kind

/-- What follows two hyphens to name an option. -/
def long : Choice → String
  | .configFile => "config"
  | .setting (.endpoint side part) => side.name ++ "-" ++ part.name
  | .setting .diffFileDir => "diff-dir"
  | .setting .inputDiffKeysFile => "input-keys"
  | .setting .outputDiffKeysFile => "output-keys"
  | .setting .numWorkers => "workers"
  | .setting .batchSize => "batch-size"
  | .setting .timeoutSecs => "timeout"
  | .setting .maxSendBatchRetries => "max-retries"
  | .setting .retryInterval => "retry-interval-ms"
  | .setting .maxBackoff => "max-backoff-ms"
  | .setting .reportInterval => "report-interval-ms"

/-- What follows one hyphen to name an option. -/
def short? : Choice → Option Char
  | .configFile => some 'c'
  | .setting _ => none

end Choice

/-- The values that options have been given. -/
abbrev Choices := (c : Choice) → Option c.kind.Value

namespace Choices

/-- No option has been given a value. -/
def none : Choices := fun _ => Option.none

/-- Give an option a value. -/
def give (choices : Choices) (c : Choice) (value : c.kind.Value) : Choices := fun d =>
  if h : c = d then some (h ▸ value) else choices d

theorem give_self (choices : Choices) (c : Choice) (v : c.kind.Value) :
    choices.give c v c = some v := by
  simp [give]

theorem give_of_ne (choices : Choices) {c d : Choice} (v : c.kind.Value) (h : c ≠ d) :
    choices.give c v d = choices d := by
  simp [give, h]

/-- The values that go before those of the configuration file. -/
def overrides (choices : Choices) : Overrides := fun s => choices (.setting s)

end Choices

/-- Why a text is no value of its option. -/
inductive BadValue where
  | emptyPath
  | notANumber
deriving DecidableEq

/-- A number from zero to `bound`, which may have a plus but no minus before it. -/
def parseUnsigned (bound : Nat) (text : String) : Except BadValue Nat :=
  match Decimal.unsigned? text.toList with
  | some n => if n ≤ bound then .ok n else .error .notANumber
  | none => .error .notANumber

/-- A number from zero to `bound`, which may have any sign before it. -/
def parseSigned (bound : Nat) (text : String) : Except BadValue Nat :=
  match Decimal.signed? text.toList with
  | some n => if 0 ≤ n ∧ n ≤ bound then .ok n.toNat else .error .notANumber
  | none => .error .notANumber

/-- The value of a text. -/
def parseValue (text : String) : (k : Setting.Kind) → Except BadValue k.Value
  | .text => .ok text
  | .path => if text.isEmpty then .error .emptyPath else .ok text
  | .count => (parseUnsigned 18446744073709551615 text).map UInt64.ofNat
  | .repeats => (parseSigned 4294967295 text).map UInt32.ofNat
  | .millis =>
      (parseUnsigned 18446744073709551615 text).map fun n => Duration.ofMillis (UInt64.ofNat n)

end ReplicaDiff.CommandLine
