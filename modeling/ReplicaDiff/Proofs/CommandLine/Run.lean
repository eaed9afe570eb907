/-
# ReplicaDiff.Proofs.CommandLine.Run — how a command line that asks for a run ends

Such a command line comes to nothing for one of three reasons (`Unready`): its
configuration cannot be loaded, a run cannot begin with it, or one of the steps
before the workers fails.  Otherwise its run begins (`unready_or_begins`), and comes
to a summary unless it has more workers than there can be shares.  The status of the
program tells which of the three it was (`fails_at_startup_only`): neither a store
that answers no fetch nor a result file that cannot be written is a reason to fail.
-/
import ReplicaDiff.CommandLine.Program
import ReplicaDiff.Proofs.Run.Startup

namespace ReplicaDiff

set_option autoImplicit false

open ReplicaDiff.Run (Alike Fails FirstFailure Ready SaidAtStartup Trace Unfolds threeKeysListed)
open ReplicaDiff.World

/-- Opening a snapshot says at most that it was loaded. -/
theorem Connector.isOfStartup_of_opens {files : Files} {side : Side} {endpoint : Endpoint}
    {connection : Connection} (opens : snapshots files side endpoint = .ok connection)
    {event : Event} (mem : event ∈ connection.events) : event.isOfStartup = true := by
  unfold snapshots at opens
  repeat' split at opens
  all_goals cases opens
  rw [List.mem_singleton.1 mem]
  rfl

namespace CommandLine

variable {environment : String → Option String} {tree : FileTree} {tokens : List String}
  {a : Arguments} {failure : Failure}

/-- Why a command line that asks for a run does not come to one. -/
inductive Unready (tree : FileTree) (a : Arguments) : Failure → Prop where
  | configFile {error : Config.File.Error}
      (loads : Config.File.load tree.read (a.choices .configFile) = .error error) :
      Unready tree a (.configFile error)
  | refused {base : Config} {reason : String}
      (loads : Config.File.load tree.read (a.choices .configFile) = .ok base)
      (refuses : (a.config base).validate = .error reason) :
      Unready tree a (.refused (.invalidConfig reason))
  | notBegun {base : Config} {step : Run.Step} {error : StartupError}
      (loads : Config.File.load tree.read (a.choices .configFile) = .ok base)
      (accepts : (a.config base).validate = .ok ())
      (first : FirstFailure (a.config base) .snapshots tree.read step error) :
      Unready tree a (.notBegun error)

/-- A command line that asks for a run begins one with a configuration. -/
inductive Begins (tree : FileTree) (a : Arguments) : Config → Prop where
  | intro {base : Config}
      (loads : Config.File.load tree.read (a.choices .configFile) = .ok base)
      (accepts : (a.config base).validate = .ok ())
      (ready : Ready (a.config base) .snapshots tree.read) :
      Begins tree a (a.config base)

/-- A command line that asks for a run is unready or begins one. -/
theorem unready_or_begins (tree : FileTree) (a : Arguments) :
    (∃ failure, Unready tree a failure) ∨ ∃ config, Begins tree a config := by
  cases loads : Config.File.load tree.read (a.choices .configFile) with
  | error error => exact .inl ⟨_, .configFile loads⟩
  | ok base =>
    cases accepts : (a.config base).validate with
    | error reason => exact .inl ⟨_, .refused loads accepts⟩
    | ok =>
      obtain ⟨step, error, first⟩ | ready :=
        Run.firstFailure_or_ready (a.config base) .snapshots tree.read
      · exact .inl ⟨_, .notBegun loads accepts first⟩
      · exact .inr ⟨_, .intro loads accepts ready⟩

theorem resolveValid_of_unloaded {error : Config.File.Error}
    (loads : Config.File.load tree.read (a.choices .configFile) = .error error) :
    resolveValid tree.read a = .error (.configFile error) := by
  simp [resolveValid, resolve, loads, bind, Except.bind]

theorem resolveValid_of_refused {base : Config} {reason : String}
    (loads : Config.File.load tree.read (a.choices .configFile) = .ok base)
    (refuses : (a.config base).validate = .error reason) :
    resolveValid tree.read a = .error (.refused (.invalidConfig reason)) := by
  simp [resolveValid, resolve, loads, Run.accept, refuses, bind, Except.bind]

theorem resolveValid_of_valid {base : Config}
    (loads : Config.File.load tree.read (a.choices .configFile) = .ok base)
    (accepts : (a.config base).validate = .ok ()) :
    resolveValid tree.read a = .ok (a.config base) := by
  simp [resolveValid, resolve, loads, Run.accept, accepts, bind, Except.bind]

theorem perform_of_unresolved (asks : a.command = .run)
    (resolves : resolveValid tree.read a = .error failure) :
    a.perform tree = ⟨.failed failure, [], tree⟩ := by
  simp only [Arguments.perform, asks, resolves]

theorem perform_of_resolved {config : Config} (asks : a.command = .run)
    (resolves : resolveValid tree.read a = .ok config) :
    a.perform tree = .ofTrace (Run.execute config .snapshots tree) := by
  simp only [Arguments.perform, asks, resolves]

namespace Unready

variable (unready : Unready tree a failure) (asks : a.command = .run)

include unready asks

/-- The work of an unready command line fails for its reason and leaves the files as they were. -/
theorem perform_fails :
    (a.perform tree).result = .failed failure ∧ (a.perform tree).tree = tree := by
  cases unready with
  | configFile loads =>
      rw [perform_of_unresolved asks (resolveValid_of_unloaded loads)]
      exact ⟨rfl, rfl⟩
  | refused loads refuses =>
      rw [perform_of_unresolved asks (resolveValid_of_refused loads refuses)]
      exact ⟨rfl, rfl⟩
  | @notBegun base step error loads accepts first =>
      rw [perform_of_resolved asks (resolveValid_of_valid loads accepts)]
      obtain ⟨log, unfolds, -⟩ := Run.execute_unfolds (a.config base) .snapshots tree
      have outcome := unfolds.outcome_error_iff.2 ⟨step, first⟩
      refine ⟨?_, (unfolds.untouched_of_firstFailure first).2.1⟩
      simp only [Work.ofTrace, outcome, Result.ofRun]

/-- What it tells comes from the steps before the workers. -/
theorem isOfStartup_of_told {told : Nat × Event} (mem : told ∈ (a.perform tree).events) :
    told.2.isOfStartup = true := by
  cases unready with
  | configFile loads =>
      rw [perform_of_unresolved asks (resolveValid_of_unloaded loads)] at mem
      cases mem
  | refused loads refuses =>
      rw [perform_of_unresolved asks (resolveValid_of_refused loads refuses)] at mem
      cases mem
  | @notBegun base step error loads accepts first =>
      rw [perform_of_resolved asks (resolveValid_of_valid loads accepts)] at mem
      obtain ⟨log, unfolds, -⟩ := Run.execute_unfolds (a.config base) .snapshots tree
      obtain ofStep | ⟨source, opens, said⟩ := (unfolds.events_of_firstFailure first mem).2
      · exact ofStep
      · exact Connector.isOfStartup_of_opens opens said

end Unready

theorem Work.ending_of_failed {w : Work} (failed : w.result = .failed failure)
    (filter : Event.Filter) (asJson : Bool) :
    (w.ending filter asJson).status = 1 ∧
      (w.ending filter asJson).error = some failure.report ∧
      (w.ending filter asJson).tree = w.tree ∧
      ∀ told ∈ (w.ending filter asJson).events, told ∈ w.events ∨ told.2 = failure.event := by
  unfold Work.ending
  rw [failed]
  refine ⟨rfl, rfl, rfl, fun told mem => ?_⟩
  rcases List.mem_append.1 (List.mem_of_mem_filter mem) with mem | mem
  · exact .inl mem
  · exact .inr (by rw [List.mem_singleton.1 mem])

/-- An unready command line ends the program with status 1 and its reason. -/
theorem Unready.execute_fails (unready : Unready tree a failure)
    (reads : Arguments.read tokens = .ok a) (asks : a.command = .run) :
    (execute environment tree tokens).status = 1 ∧
      (execute environment tree tokens).error = some failure.report ∧
      (execute environment tree tokens).tree = tree ∧
      ∀ told ∈ (execute environment tree tokens).events,
        told.2.isOfStartup = true ∨ told.2 = failure.event := by
  obtain ⟨failed, same⟩ := unready.perform_fails asks
  simp only [execute, reads]
  obtain ⟨status, error, tree_eq, told⟩ :=
    Work.ending_of_failed failed (a.filter environment) a.flags.logJson
  refine ⟨status, error, tree_eq.trans same, fun event mem => ?_⟩
  exact (told event mem).imp_left (unready.isOfStartup_of_told asks)

namespace Begins

variable {config : Config} (begins : Begins tree a config)
  (reads : Arguments.read tokens = .ok a) (asks : a.command = .run)

include begins

theorem perform_eq (asks : a.command = .run) :
    a.perform tree = .ofTrace (Run.execute config .snapshots tree) := by
  obtain ⟨loads, accepts, -⟩ := begins
  exact perform_of_resolved asks (resolveValid_of_valid loads accepts)

theorem ready : Ready config .snapshots tree.read := by
  obtain ⟨-, -, ready⟩ := begins
  exact ready

include reads asks

/-- A command line whose run comes to a summary ends the program with status 0. -/
theorem status_eq_zero (environment : String → Option String)
    (room : config.numWorkers ≤ mostShares) : (execute environment tree tokens).status = 0 := by
  obtain ⟨log, unfolds, -⟩ := Run.execute_unfolds config .snapshots tree
  obtain ⟨summary, ok⟩ := unfolds.ok_of_ready begins.ready room
  simp only [execute, reads, begins.perform_eq asks, Work.ending, Work.ofTrace, ok, Result.ofRun]

/-- A command line whose run breaks off ends the program with a status of its own. -/
theorem breaks_off (environment : String → Option String)
    (many : mostShares < config.numWorkers) :
    (execute environment tree tokens).status = brokenOffStatus ∧
      (execute environment tree tokens).tree = tree := by
  obtain ⟨log, unfolds, -⟩ := Run.execute_unfolds config .snapshots tree
  obtain ⟨-, outcome, same⟩ := unfolds.brokenOff_of_ready begins.ready many
  simp only [execute, reads, begins.perform_eq asks, Work.ending, Work.ofTrace, outcome, same,
    Result.ofRun, and_self]

end Begins

section Status

variable (environment : String → Option String) (tree : FileTree)
  (reads : Arguments.read tokens = .ok a) (asks : a.command = .run)

include reads asks

/-- A command line that asks for a run ends the program with status 1 just when it is unready. -/
theorem status_eq_one_iff :
    (execute environment tree tokens).status = 1 ↔ ∃ failure, Unready tree a failure := by
  refine ⟨fun one => ?_, fun ⟨failure, unready⟩ => (unready.execute_fails reads asks).1⟩
  obtain unready | ⟨config, begins⟩ := unready_or_begins tree a
  · exact unready
  · rcases UInt64.lt_or_le mostShares config.numWorkers with many | room
    · rw [(begins.breaks_off reads asks environment many).1] at one
      cases one
    · rw [begins.status_eq_zero reads asks environment room] at one
      cases one

/-- It ends it with status 0 just when it begins a run, with no more workers than there can be
shares. -/
theorem status_eq_zero_iff :
    (execute environment tree tokens).status = 0 ↔
      ∃ config, Begins tree a config ∧ config.numWorkers ≤ mostShares := by
  refine ⟨fun zero => ?_, fun ⟨config, begins, room⟩ =>
    begins.status_eq_zero reads asks environment room⟩
  obtain ⟨failure, unready⟩ | ⟨config, begins⟩ := unready_or_begins tree a
  · rw [(unready.execute_fails reads asks).1] at zero
    cases zero
  · refine ⟨config, begins, UInt64.not_lt.1 fun many => ?_⟩
    rw [(begins.breaks_off reads asks environment many).1] at zero
    cases zero

end Status

/-- A run fails exactly with the first failure of its steps before the workers, of whatever kind its
stores and files are and however its workers are scheduled.  Then no worker has been fired and no
store has been opened to one; the files are what they were; it has told of its steps only; and
neither the content of the stores nor the steps that would have come later make a difference.  If no
step fails it comes to a summary, and with more workers than there can be shares it breaks off and
leaves the files alone.

A command line that asks for a run is unready or begins one.  It ends with status 1 exactly if it is
unready: its configuration cannot be loaded, a run cannot begin with it, or one of those steps fails.
It ends with status 0 exactly if it begins a run with no more workers than there can be shares. -/
theorem fails_at_startup_only {config : Config} {connector : Connector} {tree : FileTree}
    {log : List (Stage Worker.State WorkerEffect)} {trace : Trace}
    (unfolds : Unfolds config connector tree log trace) :
    (∀ error, trace.outcome = .error error ↔
      ∃ step, FirstFailure config connector tree.read step error) ∧
    ((∃ error, trace.outcome = .error error) ↔
      ∃ step error, Fails config connector tree.read step error) ∧
    (∀ step error, FirstFailure config connector tree.read step error →
      log = [] ∧ trace.tree = tree ∧ trace.stores = none ∧
      (∀ told ∈ trace.events, told.1 = 0 ∧ SaidAtStartup config connector tree.read told.2) ∧
      ∀ connector' log' trace',
        (∀ side, step.attempts side → Alike config tree.read connector connector' side) →
        Unfolds config connector' tree log' trace' → trace' = trace) ∧
    ((∀ step error, ¬Fails config connector tree.read step error) →
      (config.numWorkers ≤ mostShares → ∃ summary, trace.outcome = .ok summary) ∧
      (mostShares < config.numWorkers →
        log = [] ∧ trace.outcome = .brokenOff ∧ trace.tree = tree)) ∧
    ∀ environment tree tokens a, Arguments.read tokens = .ok a → a.command = .run →
      ((∃ failure, Unready tree a failure) ∨ ∃ config, Begins tree a config) ∧
      ((execute environment tree tokens).status = 1 ↔ ∃ failure, Unready tree a failure) ∧
      ((execute environment tree tokens).status = 0 ↔
        ∃ config, Begins tree a config ∧ config.numWorkers ≤ mostShares) ∧
      (∀ failure, Unready tree a failure →
        (execute environment tree tokens).error = some failure.report ∧
        (execute environment tree tokens).tree = tree ∧
        ∀ told ∈ (execute environment tree tokens).events,
          told.2.isOfStartup = true ∨ told.2 = failure.event) ∧
      ∀ config, Begins tree a config → mostShares < config.numWorkers →
        (execute environment tree tokens).status = brokenOffStatus ∧
        (execute environment tree tokens).tree = tree := by
  refine ⟨fun error => unfolds.outcome_error_iff, ⟨?_, ?_⟩, fun step error first => ?_,
    fun none => ?_, ?_⟩
  · rintro ⟨error, failed⟩
    obtain ⟨step, first⟩ := unfolds.outcome_error_iff.1 failed
    exact ⟨step, error, first.fails⟩
  · rintro ⟨step, error, fails⟩
    obtain ⟨step, error, first⟩ := fails.exists_first
    exact ⟨error, unfolds.outcome_error_iff.2 ⟨step, first⟩⟩
  · obtain ⟨unfired, same, unopened⟩ := unfolds.untouched_of_firstFailure first
    exact ⟨unfired, same, unopened, fun told mem => unfolds.events_of_firstFailure first mem,
      fun connector' log' trace' alike => unfolds.eq_of_firstFailure first alike⟩
  · have ready : Ready config connector tree.read :=
      (Run.firstFailure_or_ready config connector tree.read).resolve_left
        fun ⟨step, error, first⟩ => none step error first.fails
    exact ⟨unfolds.ok_of_ready ready, unfolds.brokenOff_of_ready ready⟩
  · intro environment tree tokens a reads asks
    exact ⟨unready_or_begins tree a, status_eq_one_iff environment tree reads asks,
      status_eq_zero_iff environment tree reads asks,
      fun failure unready => (unready.execute_fails reads asks).2,
      fun config begins many => begins.breaks_off reads asks environment many⟩

/-- In an empty directory a run fails for want of its key list and leaves the directory empty; a
command line that names a configuration file there ends with status 1. -/
theorem fails_at_startup_only_in_empty_directory :
    (Run.execute (.inMemory "") .snapshots (.bare [])).outcome =
        .error (.keyListRead "diffKeys" .missing) ∧
      (Run.execute (.inMemory "") .snapshots (.bare [])).tree = .bare [] ∧
      (execute (fun _ => none) (.bare []) ["run", "--config", "settings"]).status = 1 := by
  obtain ⟨log, unfolds, -⟩ := Run.execute_unfolds (.inMemory "") .snapshots (.bare [])
  obtain ⟨outcome, -, untouched, -, ofRun⟩ := fails_at_startup_only unfolds
  have first : FirstFailure (.inMemory "") .snapshots (FileTree.bare []).read .readKeys
      (.keyListRead "diffKeys" .missing) := ⟨.readKeys rfl, nofun⟩
  have unready : ∃ a failure, Arguments.read ["run", "--config", "settings"] = .ok a ∧
      a.command = .run ∧ Unready (.bare []) a failure := ⟨_, _, rfl, rfl, .configFile rfl⟩
  obtain ⟨a, failure, reads, asks, unready⟩ := unready
  exact ⟨(outcome _).2 ⟨_, first⟩, (untouched _ _ first).2.1,
    (ofRun _ _ _ a reads asks).2.1.2 ⟨failure, unready⟩⟩

/-- A directory with a key list and an empty snapshot. -/
def emptySnapshot : FileTree := threeKeysListed.put ["s.json"] (.file [123, 125])

/-- Settings for a run between that snapshot and itself, with one worker more than there can be
shares. -/
def crowdedConfig : Config where
  source := { url := "file://", bucket := "s" }
  target := { url := "file://", bucket := "s" }
  numWorkers := 576460752303423488

/-- A command line that asks for it. -/
def crowdedRun : List String :=
  ["run", "--source-url", "file://", "--source-bucket", "s", "--target-url", "file://",
    "--target-bucket", "s", "--workers", "576460752303423488"]

/-- It is not unready, and does not end with status 0. -/
theorem crowdedRun_not_zero :
    ∃ a, Arguments.read crowdedRun = .ok a ∧ a.command = .run ∧
      (¬∃ failure, Unready emptySnapshot a failure) ∧
      (execute (fun _ => none) emptySnapshot crowdedRun).status ≠ 0 := by
  obtain ⟨a, reads, asks, unnamed, config⟩ : ∃ a, Arguments.read crowdedRun = .ok a ∧
      a.command = .run ∧ a.choices .configFile = none ∧ a.config {} = crowdedConfig :=
    ⟨_, rfl, rfl, rfl, rfl⟩
  have begins : Begins emptySnapshot a (a.config {}) := by
    refine .intro (by rw [unnamed]; rfl) (config ▸ Config.Valid.validate_eq ?_) (config ▸ ?_)
    · exact ⟨⟨by decide, rfl, rfl, by decide, by decide, by decide, by decide⟩, by decide⟩
    · exact .intro rfl rfl rfl rfl
  have breaks := begins.breaks_off reads asks (fun _ => none) (config ▸ by decide)
  refine ⟨a, reads, asks, fun ⟨failure, unready⟩ => ?_, ?_⟩
  · have fails := (status_eq_one_iff (fun _ => none) emptySnapshot reads asks).2 ⟨failure, unready⟩
    rw [breaks.1] at fails
    cases fails
  · rw [breaks.1]
    decide

end CommandLine

end ReplicaDiff
