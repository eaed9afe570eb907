/-
# ReplicaDiff.Proofs.Run.Startup — runs that do not begin

Before its workers begin a run takes four steps (`Step.all`): it reads the file of
its key list, makes a list of keys of what it holds, and opens the source and the
target.  Whether a step can fail is a matter of that step alone (`Fails`); the run
stops at the first one that does (`FirstFailure`).

Either there is a first failure or every step succeeds
(`firstFailure_or_ready`), and what `prepare` gives follows from that
(`Halts.prepare_eq`, `Ready.prepare_eq`).  So a run fails exactly with its first
failure, however its workers are scheduled and whatever their stores do
(`Unfolds.outcome_error_iff`); if every step succeeds it comes to a summary, or
breaks off for want of shares (`Unfolds.ok_of_ready`, `Unfolds.brokenOff_of_ready`).
A run that fails leaves the files as they were, tells of nothing but its steps
(`Unfolds.events_of_firstFailure`), and does not depend on the stores nor on the
steps that would have come later (`Unfolds.eq_of_firstFailure`).
-/
import ReplicaDiff.Proofs.Run.Unfolding

namespace ReplicaDiff

set_option autoImplicit false

open ReplicaDiff.Text (Bytes)
open ReplicaDiff.World

/-- Whether an event tells of a step that comes before the workers. -/
def Event.isOfStartup : Event → Bool
  | .repeatedKeysDropped .. | .snapshotLoaded .. | .connectionFailed .. | .connected .. => true
  | _ => false

namespace KeyList

variable {files : Files} {path : String}

/-- Loading a list says at most that keys were dropped. -/
theorem isOfStartup_of_mem_warnings {listed kept : List String} {event : Event}
    (mem : event ∈ warnings path listed kept) : event.isOfStartup = true := by
  unfold warnings at mem
  split at mem
  · rw [List.mem_singleton.1 mem]
    rfl
  · cases mem

theorem load_of_unreadable {cause : IoError} (reads : files path = .error cause) :
    load files path = .error (.keyListRead path cause) := by
  simp only [load, reads]

theorem load_of_unparsable {content : Bytes} {fault : Json.Fault} (reads : files path = .ok content)
    (parses : parse content = .error fault) :
    load files path = .error (.keyListParse path fault) := by
  simp only [load, reads, parses]

theorem load_of_parse {content : Bytes} {listed : List String} (reads : files path = .ok content)
    (parses : parse content = .ok listed) :
    load files path = .ok (firsts listed, warnings path listed (firsts listed)) := by
  simp only [load, reads, parses]

end KeyList

namespace Run

/-- What a run does before its workers begin. -/
inductive Step where
  | readKeys
  | parseKeys
  | connect (side : Side)
deriving DecidableEq

namespace Step

/-- The steps in the order in which they are taken. -/
def all : List Step := [.readKeys, .parseKeys, .connect .source, .connect .target]

/-- The steps that are taken before a step. -/
def earlier (step : Step) : List Step := all.takeWhile (· ≠ step)

end Step

variable {config : Config} {connector connector' : Connector} {files : Files} {tree : FileTree}
  {step : Step} {error : StartupError} {log : List (Stage Worker.State WorkerEffect)}
  {trace : Trace}

/-- A step cannot be taken, whatever becomes of the others. -/
inductive Fails (config : Config) (connector : Connector) (files : Files) :
    Step → StartupError → Prop where
  | readKeys {cause : IoError} (reads : files config.inputKeysPath = .error cause) :
      Fails config connector files .readKeys (.keyListRead config.inputKeysPath cause)
  | parseKeys {content : Bytes} {fault : Json.Fault}
      (reads : files config.inputKeysPath = .ok content)
      (parses : KeyList.parse content = .error fault) :
      Fails config connector files .parseKeys (.keyListParse config.inputKeysPath fault)
  | connect {side : Side} {error : StartupError}
      (opens : connector files side (config.endpoint side) = .error error) :
      Fails config connector files (.connect side) error

/-- A step cannot be taken, and all that come before it can. -/
structure FirstFailure (config : Config) (connector : Connector) (files : Files) (step : Step)
    (error : StartupError) : Prop where
  fails : Fails config connector files step error
  earlier : ∀ step' ∈ step.earlier, ∀ error', ¬Fails config connector files step' error'

/-- Every step can be taken. -/
inductive Ready (config : Config) (connector : Connector) (files : Files) : Prop where
  | intro {content : Bytes} {listed : List String} {source target : Connection}
      (reads : files config.inputKeysPath = .ok content)
      (parses : KeyList.parse content = .ok listed)
      (opens : connector files .source config.source = .ok source)
      (opens' : connector files .target config.target = .ok target)

/-- The steps of a run have a first failure, or all of them can be taken. -/
theorem firstFailure_or_ready (config : Config) (connector : Connector) (files : Files) :
    (∃ step error, FirstFailure config connector files step error) ∨
      Ready config connector files := by
  cases reads : files config.inputKeysPath with
  | error cause => exact .inl ⟨.readKeys, _, .readKeys reads, nofun⟩
  | ok content =>
    have read : ∀ error, ¬Fails config connector files .readKeys error := by
      rintro _ ⟨fails⟩
      exact absurd (reads.symm.trans fails) nofun
    cases parses : KeyList.parse content with
    | error fault =>
      refine .inl ⟨.parseKeys, _, .parseKeys reads parses, ?_⟩
      simpa [Step.earlier, Step.all] using read
    | ok listed =>
      have parsed : ∀ error, ¬Fails config connector files .parseKeys error := by
        rintro _ (_ | ⟨reads', fails⟩)
        obtain rfl := Except.ok.inj (reads.symm.trans reads')
        exact absurd (parses.symm.trans fails) nofun
      cases opens : connector files .source config.source with
      | error reason =>
        refine .inl ⟨.connect .source, reason, .connect opens, ?_⟩
        simpa [Step.earlier, Step.all] using ⟨read, parsed⟩
      | ok source =>
        have opened : ∀ error, ¬Fails config connector files (.connect .source) error := by
          rintro _ (_ | _ | fails)
          exact absurd (opens.symm.trans fails) nofun
        cases opens' : connector files .target config.target with
        | error reason =>
          refine .inl ⟨.connect .target, reason, .connect opens', ?_⟩
          simpa [Step.earlier, Step.all] using ⟨read, parsed, opened⟩
        | ok target => exact .inr ⟨reads, parses, opens, opens'⟩

/-- If every step can be taken then none fails. -/
theorem Ready.not_fails (ready : Ready config connector files) :
    ¬Fails config connector files step error := by
  obtain ⟨reads, parses, opens, opens'⟩ := ready
  rintro (fails | ⟨reads', fails⟩ | @⟨side, _, fails⟩)
  · exact absurd (reads.symm.trans fails) nofun
  · obtain rfl := Except.ok.inj (reads.symm.trans reads')
    exact absurd (parses.symm.trans fails) nofun
  · cases side with
    | source => exact absurd (opens.symm.trans fails) nofun
    | target => exact absurd (opens'.symm.trans fails) nofun

/-- If a step fails then there is a first one that does. -/
theorem Fails.exists_first (fails : Fails config connector files step error) :
    ∃ step error, FirstFailure config connector files step error :=
  (firstFailure_or_ready config connector files).resolve_right fun ready => ready.not_fails fails

theorem connect_of_refused (side : Side)
    (opens : connector files side (config.endpoint side) = .error error) :
    Run.connect config connector files side =
      (.error error, [.connectionFailed side (config.endpoint side).url error]) := by
  simp only [Run.connect, opens]

theorem connect_of_opened (side : Side) {connection : Connection}
    (opens : connector files side (config.endpoint side) = .ok connection) :
    Run.connect config connector files side =
      (.ok connection.store,
        connection.events ++ [.connected side (config.endpoint side).bucket]) := by
  simp only [Run.connect, opens]

/-- What a run has learnt when it stops at a step, and what it has said by then. -/
inductive Halts (config : Config) (connector : Connector) (files : Files) :
    Step → StartupError → List Event → Prop where
  | unreadable {cause : IoError} (reads : files config.inputKeysPath = .error cause) :
      Halts config connector files .readKeys (.keyListRead config.inputKeysPath cause) []
  | unparsable {content : Bytes} {fault : Json.Fault}
      (reads : files config.inputKeysPath = .ok content)
      (parses : KeyList.parse content = .error fault) :
      Halts config connector files .parseKeys (.keyListParse config.inputKeysPath fault) []
  | source {content : Bytes} {listed : List String} {error : StartupError}
      (reads : files config.inputKeysPath = .ok content)
      (parses : KeyList.parse content = .ok listed)
      (opens : connector files .source config.source = .error error) :
      Halts config connector files (.connect .source) error
        (KeyList.warnings config.inputKeysPath listed (KeyList.firsts listed)
          ++ [.connectionFailed .source config.source.url error])
  | target {content : Bytes} {listed : List String} {source : Connection} {error : StartupError}
      (reads : files config.inputKeysPath = .ok content)
      (parses : KeyList.parse content = .ok listed)
      (opens : connector files .source config.source = .ok source)
      (opens' : connector files .target config.target = .error error) :
      Halts config connector files (.connect .target) error
        (KeyList.warnings config.inputKeysPath listed (KeyList.firsts listed)
          ++ (source.events ++ [.connected .source config.source.bucket])
          ++ [.connectionFailed .target config.target.url error])

/-- A run stops at its first failure. -/
theorem FirstFailure.halts (first : FirstFailure config connector files step error) :
    ∃ said, Halts config connector files step error said := by
  obtain ⟨fails, earlier⟩ := first
  -- An earlier step has come to a value, for there is no error that it could have come to.
  have readable : .readKeys ∈ step.earlier →
      ∃ content, files config.inputKeysPath = .ok content := by
    intro mem
    cases reads : files config.inputKeysPath with
    | error cause => exact absurd (.readKeys reads) (earlier _ mem _)
    | ok content => exact ⟨content, rfl⟩
  have parsable : .parseKeys ∈ step.earlier → ∀ {content},
      files config.inputKeysPath = .ok content →
      ∃ listed, KeyList.parse content = .ok listed := by
    intro mem content reads
    cases parses : KeyList.parse content with
    | error fault => exact absurd (.parseKeys reads parses) (earlier _ mem _)
    | ok listed => exact ⟨listed, rfl⟩
  have opened : ∀ side, .connect side ∈ step.earlier →
      ∃ connection, connector files side (config.endpoint side) = .ok connection := by
    intro side mem
    cases opens : connector files side (config.endpoint side) with
    | error reason => exact absurd (.connect opens) (earlier _ mem _)
    | ok connection => exact ⟨connection, rfl⟩
  cases fails with
  | readKeys fails => exact ⟨_, .unreadable fails⟩
  | parseKeys reads fails => exact ⟨_, .unparsable reads fails⟩
  | @connect side error fails =>
      cases side with
      | source =>
          obtain ⟨content, reads⟩ := readable (by decide)
          obtain ⟨listed, parses⟩ := parsable (by decide) reads
          exact ⟨_, .source reads parses fails⟩
      | target =>
          obtain ⟨content, reads⟩ := readable (by decide)
          obtain ⟨listed, parses⟩ := parsable (by decide) reads
          obtain ⟨source, opens⟩ := opened .source (by decide)
          exact ⟨_, .target reads parses opens fails⟩

/-- What preparing a run gives that stops at a step. -/
theorem Halts.prepare_eq {said : List Event} (halts : Halts config connector files step error said) :
    prepare config connector files = (.error error, said) := by
  unfold prepare
  cases halts with
  | unreadable reads => rw [KeyList.load_of_unreadable reads]
  | unparsable reads parses => rw [KeyList.load_of_unparsable reads parses]
  | source reads parses opens =>
      rw [KeyList.load_of_parse reads parses]
      dsimp only
      rw [connect_of_refused .source opens]
      rfl
  | target reads parses opens opens' =>
      rw [KeyList.load_of_parse reads parses]
      dsimp only
      rw [connect_of_opened .source opens]
      dsimp only
      rw [connect_of_refused .target opens']
      rfl

/-- What can be said before the workers begin: what the steps say, and what opening the source
says. -/
def SaidAtStartup (config : Config) (connector : Connector) (files : Files) (event : Event) : Prop :=
  event.isOfStartup = true ∨
    ∃ source, connector files .source config.source = .ok source ∧ event ∈ source.events

/-- A run that stops at a step has told of nothing but its steps. -/
theorem Halts.saidAtStartup {said : List Event} (halts : Halts config connector files step error said)
    {event : Event} (mem : event ∈ said) : SaidAtStartup config connector files event := by
  cases halts with
  | unreadable reads => cases mem
  | unparsable reads parses => cases mem
  | source reads parses opens =>
      rw [List.mem_append, List.mem_singleton] at mem
      obtain mem | rfl := mem
      · exact .inl (KeyList.isOfStartup_of_mem_warnings mem)
      · exact .inl rfl
  | @target _ _ source _ reads parses opens opens' =>
      simp only [List.mem_append, List.mem_singleton] at mem
      obtain (mem | mem | rfl) | rfl := mem
      · exact .inl (KeyList.isOfStartup_of_mem_warnings mem)
      · exact .inr ⟨source, opens, mem⟩
      · exact .inl rfl
      · exact .inl rfl

/-- Opening a side looks the same with either connector: both refuse it for one reason, or both say
the same.  The stores that they hand out may differ. -/
def Alike (config : Config) (files : Files) (connector connector' : Connector) (side : Side) : Prop :=
  (connector files side (config.endpoint side)).map Connection.events =
    (connector' files side (config.endpoint side)).map Connection.events

/-- Whether a side is attempted by the time a step has been taken. -/
def Step.attempts (step : Step) (side : Side) : Bool := (step.earlier ++ [step]).contains (.connect side)

theorem Alike.refused {side : Side} (alike : Alike config files connector connector' side)
    (opens : connector files side (config.endpoint side) = .error error) :
    connector' files side (config.endpoint side) = .error error := by
  unfold Alike at alike
  rw [opens] at alike
  cases opens' : connector' files side (config.endpoint side) with
  | error reason =>
      rw [opens'] at alike
      exact congrArg Except.error (Except.error.inj alike).symm
  | ok connection =>
      rw [opens'] at alike
      cases alike

theorem Alike.opened {side : Side} {connection : Connection}
    (alike : Alike config files connector connector' side)
    (opens : connector files side (config.endpoint side) = .ok connection) :
    ∃ connection', connector' files side (config.endpoint side) = .ok connection' ∧
      connection'.events = connection.events := by
  unfold Alike at alike
  rw [opens] at alike
  cases opens' : connector' files side (config.endpoint side) with
  | error reason =>
      rw [opens'] at alike
      cases alike
  | ok connection' =>
      rw [opens'] at alike
      exact ⟨connection', rfl, (Except.ok.inj alike).symm⟩

/-- Where a run stops does not depend on the steps that would have come later, nor on stores. -/
theorem Halts.congr {said : List Event} (halts : Halts config connector files step error said)
    (alike : ∀ side, step.attempts side → Alike config files connector connector' side) :
    Halts config connector' files step error said := by
  cases halts with
  | unreadable reads => exact .unreadable reads
  | unparsable reads parses => exact .unparsable reads parses
  | source reads parses opens =>
      exact .source reads parses ((alike .source rfl).refused opens)
  | target reads parses opens opens' =>
      obtain ⟨source', opens, same⟩ := (alike .source rfl).opened opens
      rw [← same]
      exact .target reads parses opens ((alike .target rfl).refused opens')

/-- Preparing a run all of whose steps can be taken succeeds. -/
theorem Ready.prepare_eq (ready : Ready config connector files) :
    ∃ setup said, prepare config connector files = (.ok setup, said) := by
  obtain ⟨reads, parses, opens, opens'⟩ := ready
  obtain ⟨said, prepared⟩ := exists_prepare_ok reads parses opens opens'
  exact ⟨_, said, prepared⟩

namespace Unfolds

variable (unfolds : Unfolds config connector tree log trace)

include unfolds

/-- A run that stops at a step can unfold in one way only. -/
theorem eq_refused {said : List Event} (halts : Halts config connector tree.read step error said) :
    log = [] ∧ trace = .refused error said tree := by
  cases unfolds with
  | refused fails =>
      obtain ⟨sameError, rfl⟩ := Prod.mk.inj (fails.symm.trans halts.prepare_eq)
      obtain rfl := Except.error.inj sameError
      exact ⟨rfl, rfl⟩
  | brokenOff begins many =>
      exact absurd (Prod.mk.inj (begins.symm.trans halts.prepare_eq)).1 nofun
  | ended begins ended writes =>
      exact absurd (Prod.mk.inj (begins.symm.trans halts.prepare_eq)).1 nofun

/-- A run all of whose steps can be taken comes to a summary, unless it has too many workers. -/
theorem ok_of_ready (ready : Ready config connector tree.read)
    (room : config.numWorkers ≤ mostShares) : ∃ summary, trace.outcome = .ok summary := by
  obtain ⟨setup, said, begins⟩ := ready.prepare_eq
  obtain ⟨world, tree', report, -, -, rfl⟩ := unfolds.eq_ended begins room
  exact ⟨_, rfl⟩

/-- With too many workers it breaks off, and leaves the files as they were. -/
theorem brokenOff_of_ready (ready : Ready config connector tree.read)
    (many : mostShares < config.numWorkers) :
    log = [] ∧ trace.outcome = .brokenOff ∧ trace.tree = tree := by
  obtain ⟨setup, said, begins⟩ := ready.prepare_eq
  obtain ⟨rfl, rfl⟩ := unfolds.eq_brokenOff begins many
  exact ⟨rfl, rfl, rfl⟩

/-- The error of a run is its first failure. -/
theorem outcome_error_iff :
    trace.outcome = .error error ↔ ∃ step, FirstFailure config connector tree.read step error := by
  constructor
  · intro failed
    obtain ⟨step, error', first⟩ | ready := firstFailure_or_ready config connector tree.read
    · obtain ⟨said, halts⟩ := first.halts
      rw [(unfolds.eq_refused halts).2] at failed
      exact ⟨step, Conclusion.error.inj failed ▸ first⟩
    · rcases UInt64.lt_or_le mostShares config.numWorkers with many | room
      · exact absurd ((unfolds.brokenOff_of_ready ready many).2.1.symm.trans failed) nofun
      · obtain ⟨summary, ok⟩ := unfolds.ok_of_ready ready room
        exact absurd (ok.symm.trans failed) nofun
  · rintro ⟨step, first⟩
    obtain ⟨said, halts⟩ := first.halts
    rw [(unfolds.eq_refused halts).2]
    rfl

/-- A run with a first failure leaves the files as they were and opens no store for its workers. -/
theorem untouched_of_firstFailure (first : FirstFailure config connector tree.read step error) :
    log = [] ∧ trace.tree = tree ∧ trace.stores = none := by
  obtain ⟨said, halts⟩ := first.halts
  obtain ⟨rfl, rfl⟩ := unfolds.eq_refused halts
  exact ⟨rfl, rfl, rfl⟩

/-- It tells of its steps only, and before any time has passed. -/
theorem events_of_firstFailure (first : FirstFailure config connector tree.read step error)
    {told : Nat × Event} (mem : told ∈ trace.events) :
    told.1 = 0 ∧ SaidAtStartup config connector tree.read told.2 := by
  obtain ⟨said, halts⟩ := first.halts
  rw [(unfolds.eq_refused halts).2] at mem
  obtain ⟨event, said_mem, rfl⟩ := List.mem_map.1 mem
  exact ⟨rfl, halts.saidAtStartup said_mem⟩

/-- It unfolds in the same way with any connector that looks the same up to that failure. -/
theorem eq_of_firstFailure (first : FirstFailure config connector tree.read step error)
    (alike : ∀ side, step.attempts side → Alike config tree.read connector connector' side)
    {log' : List (Stage Worker.State WorkerEffect)} {trace' : Trace}
    (unfolds' : Unfolds config connector' tree log' trace') : trace' = trace := by
  obtain ⟨said, halts⟩ := first.halts
  rw [(unfolds.eq_refused halts).2, (unfolds'.eq_refused (halts.congr alike)).2]

end Unfolds

end Run

end ReplicaDiff
