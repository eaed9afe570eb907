/-
# ReplicaDiff.Proofs.Config.Validity — what a valid configuration promises

`validate` reports the first check that fails; a configuration that passes all of
them is valid, and no other is (`Config.validate_eq_ok_iff`).
-/
import ReplicaDiff.Config

namespace ReplicaDiff

set_option autoImplicit false

theorem Duration.isZero_iff {d : Duration} : d.isZero ↔ d.toNanos = 0 := by
  simp only [isZero, toNanos, nanosPerSecond, decide_eq_true_eq]
  omega

namespace Config

/-- A configuration that passes every check but that of its report interval, which is the last
one. -/
structure Passes (config : Config) : Prop where
  source : validateEndpoint "source" config.source = .ok ()
  target : validateEndpoint "target" config.target = .ok ()
  named : (config.inputDiffKeysFile.isEmpty || config.outputDiffKeysFile.isEmpty) = false
  workers : config.numWorkers ≠ 0
  batch : config.batchSize ≠ 0
  timeout : config.timeoutSecs ≠ 0
  pauses : ¬config.maxBackoff < config.retryInterval

/-- A configuration that passes every check. -/
structure Valid (config : Config) : Prop extends Passes config where
  reports : config.reportInterval.isZero = false

variable {config : Config}

theorem Passes.validate_eq (passes : config.Passes) :
    config.validate =
      if config.reportInterval.isZero then .error "report interval must be non-zero" else .ok () := by
  obtain ⟨source, target, named, workers, batch, timeout, pauses⟩ := passes
  simp [validate, source, target, named, workers, batch, timeout, pauses, bind, Except.bind]

theorem Valid.validate_eq (valid : config.Valid) : config.validate = .ok () := by
  rw [valid.toPasses.validate_eq, valid.reports]
  rfl

theorem valid_of_validate (accepted : config.validate = .ok ()) : config.Valid := by
  unfold validate at accepted
  cases source : validateEndpoint "source" config.source with
  | error reason => simp [source, bind, Except.bind] at accepted
  | ok =>
      cases target : validateEndpoint "target" config.target with
      | error reason => simp [source, target, bind, Except.bind] at accepted
      | ok =>
          simp only [source, target, bind, Except.bind] at accepted
          repeat' split at accepted
          all_goals first
            | exact ⟨⟨source, target, Bool.eq_false_iff.2 ‹_›, ‹_›, ‹_›, ‹_›, ‹_›⟩,
                Bool.eq_false_iff.2 ‹_›⟩
            | cases accepted

/-- The reports of a valid configuration come at an interval that is not empty. -/
theorem reportInterval_pos_of_validate (accepted : config.validate = .ok ()) :
    0 < config.reportInterval.toNanos :=
  Nat.pos_of_ne_zero fun zero =>
    Bool.eq_false_iff.1 (valid_of_validate accepted).reports (Duration.isZero_iff.2 zero)

/-- Any other report interval that is not empty will do as well. -/
theorem Valid.reporting (valid : config.Valid) {interval : Duration} (some : interval.isZero = false) :
    { config with reportInterval := interval }.Valid :=
  { valid with reports := some }

/-- The valid configurations are those that pass every check. -/
theorem validate_eq_ok_iff : config.validate = .ok () ↔ config.Valid :=
  ⟨valid_of_validate, Valid.validate_eq⟩

/-- The settings for stores in memory are valid with any endpoints that are. -/
theorem inMemory_valid_of {dir : String} {source target : Endpoint}
    (ofSource : validateEndpoint "source" source = .ok ())
    (ofTarget : validateEndpoint "target" target = .ok ()) :
    { inMemory dir with source, target }.validate = .ok () := by
  have pauses : ¬(Duration.ofMillis 40 < Duration.ofMillis 10) := by decide
  have reports : (Duration.ofMillis 100).isZero = false := by decide
  have some : (2 : UInt64) ≠ 0 := by decide
  have timeout : (1 : UInt64) ≠ 0 := by decide
  exact Valid.validate_eq ⟨⟨ofSource, ofTarget, rfl, some, some, timeout, pauses⟩, reports⟩

/-- The settings for stores in memory are valid. -/
theorem inMemory_valid (dir : String) : (inMemory dir).validate = .ok () :=
  inMemory_valid_of rfl rfl

end Config

end ReplicaDiff
