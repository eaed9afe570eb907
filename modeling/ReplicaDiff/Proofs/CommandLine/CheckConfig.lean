/-
# ReplicaDiff.Proofs.CommandLine.CheckConfig — what the shown settings are good for

A command line that asks for a check resolves its configuration as a run does, and
fails as a run does where the file cannot be loaded or the settings are refused.
Settings that are accepted are shown as a document that gives them back, passwords
aside, when it is loaded from a file (`shown_config_read_back`).

Not all accepted settings can be shown: a command line takes every number of 64
bits, and an integer of TOML has only 63 for its value (`too_large_to_show`).
-/
import ReplicaDiff.Proofs.CommandLine.Arguments
import ReplicaDiff.Proofs.CommandLine.Run
import ReplicaDiff.Proofs.Config.File

namespace ReplicaDiff

set_option autoImplicit false

/-- The second configuration is the first one with every password that hides something out of
sight. -/
structure Config.Redacted (config shown : Config) : Prop where
  password : ∀ side, (shown.endpoint side).password =
    if (config.endpoint side).password = "" then "" else redacted
  other : ∀ s : Setting, (∀ side, s ≠ .endpoint side .password) → shown.get s = config.get s

namespace CommandLine

variable {tree : FileTree} {tokens : List String} {a : Arguments} {base config : Config}

/-! ## Passwords -/

theorem endpoint_withoutPasswords (config : Config) (side : Side) :
    (withoutPasswords config).endpoint side =
      if (config.endpoint side).password.isEmpty then config.endpoint side
      else { config.endpoint side with password := redacted } := by
  cases side <;> rfl

theorem redacted_withoutPasswords (config : Config) : config.Redacted (withoutPasswords config) where
  password side := by
    rw [endpoint_withoutPasswords]
    by_cases hidden : (config.endpoint side).password = ""
    · simp [hidden]
    · simp [hidden]
  other s plain := by
    cases s with
    | endpoint side part =>
        simp only [Config.get, endpoint_withoutPasswords]
        split
        · rfl
        · cases part with
          | password => exact absurd rfl (plain side)
          | _ => rfl
    | _ => rfl

theorem fits_withoutPasswords : (withoutPasswords config).Fits ↔ config.Fits := by
  refine forall_congr' fun s => ?_
  cases s <;> exact Iff.rfl

theorem exact_withoutPasswords (exact : config.Exact) : (withoutPasswords config).Exact := by
  intro s
  cases s with
  | endpoint => exact trivial
  | _ => exact exact _

/-! ## Ending -/

/-- A check ends with what the settings are shown as, or why they are not. -/
theorem execute_of_check (environment : String → Option String) (tree : FileTree)
    (reads : Arguments.read tokens = .ok a) (asks : a.command = .checkConfig) :
    execute environment tree tokens =
      Work.ending ⟨.ofExcept (showConfig tree.read a), [], tree⟩ (a.filter environment)
        a.flags.logJson := by
  simp only [execute, reads, Arguments.perform, asks]

theorem showConfig_of_unresolved {failure : Failure}
    (resolves : resolveValid tree.read a = .error failure) :
    showConfig tree.read a = .error failure := by
  simp [showConfig, resolves, bind, Except.bind]

theorem showConfig_of_written (resolves : resolveValid tree.read a = .ok config) {text : String}
    (writes : (withoutPasswords config).toToml? = some text) :
    showConfig tree.read a = .ok (text ++ "\n") := by
  simp [showConfig, resolves, writes, bind, Except.bind]

theorem showConfig_of_unwritten (resolves : resolveValid tree.read a = .ok config)
    (unwritten : (withoutPasswords config).toToml? = none) :
    showConfig tree.read a = .error .notRendered := by
  simp [showConfig, resolves, unwritten, bind, Except.bind]

theorem exact_of_resolved (reads : Arguments.read tokens = .ok a)
    (loads : Config.File.load tree.read (a.choices .configFile) = .ok base) :
    (withoutPasswords (a.config base)).Exact :=
  exact_withoutPasswords (Arguments.config_exact reads (Config.exact_of_load loads))

/-- The program changes no file when it checks a configuration.  It fails for the reason for which a
run would find no configuration to begin with.  A configuration that a run can begin with is shown
if TOML has room for its numbers: loaded from a file, what is printed is that configuration with its
passwords out of sight.  If there is no room for a number, the program prints nothing and says so. -/
theorem shown_config_read_back {environment : String → Option String} {tree : FileTree}
    {tokens : List String} {a : Arguments} (reads : Arguments.read tokens = .ok a)
    (asks : a.command = .checkConfig) :
    (execute environment tree tokens).tree = tree ∧
    (∀ failure, resolveValid tree.read a = .error failure →
      (execute environment tree tokens).status = 1 ∧
      (execute environment tree tokens).output = "" ∧
      (execute environment tree tokens).error = some failure.report) ∧
    ∀ base, Config.File.load tree.read (a.choices .configFile) = .ok base →
      (a.config base).validate = .ok () →
      ((a.config base).Fits →
        (execute environment tree tokens).status = 0 ∧
        (execute environment tree tokens).error = none ∧
        ∀ files path, files path = .ok (Text.utf8 (execute environment tree tokens).output) →
          ∃ shown, Config.File.load files (some path) = .ok shown ∧
            (a.config base).Redacted shown) ∧
      (¬(a.config base).Fits →
        (execute environment tree tokens).status = 1 ∧
        (execute environment tree tokens).output = "" ∧
        (execute environment tree tokens).error = some Failure.notRendered.report) := by
  rw [execute_of_check environment tree reads asks]
  refine ⟨?_, fun failure resolves => ?_, fun base loads accepts => ⟨fun fits => ?_, fun large => ?_⟩⟩
  · unfold Work.ending
    split <;> rfl
  · rw [showConfig_of_unresolved resolves]
    exact ⟨rfl, rfl, rfl⟩
  · have resolves := resolveValid_of_valid loads accepts
    have exact := exact_of_resolved reads loads
    have fits := fits_withoutPasswords.2 fits
    obtain ⟨text, writes⟩ : ∃ text, (withoutPasswords (a.config base)).toToml? = some text :=
      ⟨_, Config.toToml_of_fits fits⟩
    rw [showConfig_of_written resolves writes]
    refine ⟨rfl, rfl, fun files path content => ⟨_, ?_, redacted_withoutPasswords _⟩⟩
    exact Config.File.load_of_content content (Config.ofToml_toToml fits exact writes)
  · have resolves := resolveValid_of_valid loads accepts
    have unwritten : (withoutPasswords (a.config base)).toToml? = none :=
      Config.toToml_of_not_fits fun fits => large (fits_withoutPasswords.1 fits)
    rw [showConfig_of_unwritten resolves unwritten]
    exact ⟨rfl, rfl, rfl⟩

/-- A check of two snapshots with a password and a timeout. -/
def checkOf (timeout : String) : List String :=
  ["check-config", "--source-url", "file:///a", "--source-bucket", "b", "--source-password", "p",
    "--target-url", "file:///c", "--target-bucket", "d", "--timeout", timeout]

/-- The configuration that it checks. -/
def checkedConfig (timeoutSecs : UInt64) : Config where
  source := { url := "file:///a", bucket := "b", password := "p" }
  target := { url := "file:///c", bucket := "d" }
  timeoutSecs := timeoutSecs

/-- Without a file a run can begin with it, whatever the timeout. -/
theorem checkedConfig_accepted {timeoutSecs : UInt64} (positive : timeoutSecs ≠ 0)
    (noFile : a.choices .configFile = none) (resolved : a.config {} = checkedConfig timeoutSecs) :
    Config.File.load tree.read (a.choices .configFile) = .ok {} ∧
      (a.config {}).validate = .ok () := by
  have source : Config.validateEndpoint "source" (checkedConfig 1).source = .ok () := rfl
  have target : Config.validateEndpoint "target" (checkedConfig 1).target = .ok () := rfl
  have pauses : ¬(checkedConfig 1).maxBackoff < (checkedConfig 1).retryInterval := by decide
  have reports : (checkedConfig 1).reportInterval.isZero = false := by decide
  have workers : (checkedConfig 1).numWorkers ≠ 0 := by decide
  have batch : (checkedConfig 1).batchSize ≠ 0 := by decide
  rw [noFile, resolved]
  exact ⟨rfl, Config.Valid.validate_eq
    ⟨⟨source, target, rfl, workers, batch, positive, pauses⟩, reports⟩⟩

/-- What is printed of ten seconds' timeout gives the settings back, but for the password. -/
theorem shown_config_read_back_ten_seconds :
    (execute (fun _ => none) (.bare []) (checkOf "10")).status = 0 ∧
      ∃ shown, Config.File.load
          (fun _ => .ok (Text.utf8 (execute (fun _ => none) (.bare []) (checkOf "10")).output))
          (some "shown") = .ok shown ∧
        shown.source.password = redacted ∧ shown.timeoutSecs = 10 := by
  obtain ⟨a, reads, asks, noFile, resolved⟩ : ∃ a, Arguments.read (checkOf "10") = .ok a ∧
      a.command = .checkConfig ∧ a.choices .configFile = none ∧ a.config {} = checkedConfig 10 :=
    ⟨_, rfl, rfl, rfl, rfl⟩
  obtain ⟨loads, accepts⟩ := checkedConfig_accepted (by decide) noFile resolved
  have fits : (a.config {}).Fits := by
    rw [resolved]
    decide
  obtain ⟨-, -, ofValid⟩ := shown_config_read_back reads asks
  obtain ⟨status, -, readBack⟩ := (ofValid {} loads accepts).1 fits
  obtain ⟨shown, load, same⟩ := readBack (fun _ => .ok (Text.utf8 _)) "shown" rfl
  refine ⟨status, shown, load, ?_, ?_⟩
  · have password := same.password .source
    rw [resolved] at password
    exact password
  · have timeout := same.other .timeoutSecs nofun
    rw [resolved] at timeout
    exact timeout

/-- The longest timeout that a command line takes is accepted, and cannot be shown. -/
theorem too_large_to_show : ∃ a, Arguments.read (checkOf "18446744073709551615") = .ok a ∧
    a.command = .checkConfig ∧
    Config.File.load (FileTree.bare []).read (a.choices .configFile) = .ok {} ∧
    (a.config {}).validate = .ok () ∧
    (execute (fun _ => none) (.bare []) (checkOf "18446744073709551615")).status = 1 := by
  obtain ⟨a, reads, asks, noFile, resolved⟩ :
      ∃ a, Arguments.read (checkOf "18446744073709551615") = .ok a ∧ a.command = .checkConfig ∧
        a.choices .configFile = none ∧ a.config {} = checkedConfig 18446744073709551615 :=
    ⟨_, rfl, rfl, rfl, rfl⟩
  obtain ⟨loads, accepts⟩ := checkedConfig_accepted (by decide) noFile resolved
  have unwritten : (withoutPasswords (a.config {})).toToml? = none := by
    refine Config.toToml_of_not_fits ?_
    rw [resolved]
    decide
  refine ⟨a, reads, asks, loads, accepts, ?_⟩
  rw [execute_of_check _ _ reads asks,
    showConfig_of_unwritten (resolveValid_of_valid loads accepts) unwritten]
  rfl

end CommandLine

end ReplicaDiff
