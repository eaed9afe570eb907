/-
# ReplicaDiff.Proofs.Run.Classified — every listed key is classified once

Whatever the stores do and in whatever order tasks are fired, a run that comes
to a summary has counted every listed key once and reports it in at most one
place (`classified_once`).  It reports a key nowhere exactly when a worker was
told that the batch with the key succeeded, and the comparison of the two
results that it was told for the key found nothing to report.
-/
import ReplicaDiff.Proofs.Run.Unfolding

namespace ReplicaDiff.Run

set_option autoImplicit false

open ReplicaDiff.World

/-- The places in which the results of a run report keys. -/
inductive Place where
  | missingFromSource
  | missingFromTarget
  | mismatch
  | error

/-- The results report a key in a place. -/
def Reports (results : Snapshot) (key : String) : Place → Prop
  | .missingFromSource => results.diffs.missingFromSource.contains key = true
  | .missingFromTarget => results.diffs.missingFromTarget.contains key = true
  | .mismatch => results.diffs.mismatch.contains key = true
  | .error => key ∈ results.keysWithError

/-- A worker was told that its batch, with the key in it, succeeded, and these are the results of
the key. -/
def Compared (log : List (Stage Worker.State WorkerEffect)) (key : String)
    (source target : SideResult) : Prop :=
  ∃ s ∈ log, ∃ (client : Nat) (state : Worker.State) (results : Batch.Results) (slot : Nat),
    s.told? = some ⟨client, state, .settled (.ok results)⟩ ∧ state.current[slot]? = some key ∧
      results.source[slot]? = some source ∧ results.target[slot]? = some target

namespace Ended

variable {config : Config} {setup : Setup} {log : List (Stage Worker.State WorkerEffect)}
  {world : World Worker.State WorkerEffect}

/-- A pair of results that was told for a key is the pair of the batch of the key. -/
theorem exists_finish_of_compared (h : Ended config setup log world) (sound : config.Sound)
    (fits : config.batchSize.toNat + setup.keys.length < 2 ^ 64) (nodup : setup.keys.Nodup)
    {key : String} {source target : SideResult} (compared : Compared log key source target) :
    ∃ f ∈ finishes config setup log, key ∈ f.keys ∧ f.results?.isSome ∧
      f.result? .source key = some source ∧ f.result? .target key = some target := by
  obtain ⟨s, stage, client, state, results, slot, told, at_slot, ofSource, ofTarget⟩ := compared
  have bound : client < (workers config setup.keys).length := by
    have := h.schedule.client_lt_of_told stage told
    rwa [List.length_map] at this
  have mem : (⟨state.current, state.course.attempt, some results⟩ : Worker.Finish) ∈
      finishes config setup log :=
    Worker.mem_teamFinishes.2 ⟨client, bound, Worker.mem_finishes_of_told stage told rfl⟩
  have key_mem : key ∈ state.current := List.mem_of_getElem? at_slot
  have distinct : state.current.Nodup := by
    rw [← h.keys_eq sound fits] at nodup
    exact (List.nodup_flatMap.1 nodup).1 _ mem
  have place : state.current.idxOf key = slot := by
    obtain ⟨below, rfl⟩ := List.getElem?_eq_some_iff.1 at_slot
    exact distinct.idxOf_getElem slot below
  refine ⟨_, mem, key_mem, rfl, ?_, ?_⟩
  · simpa [Worker.Finish.result?, place, Batch.Results.of] using ofSource
  · simpa [Worker.Finish.result?, place, Batch.Results.of] using ofTarget

/-- A worker was told one pair of results for a key. -/
theorem compared_unique (h : Ended config setup log world) (sound : config.Sound)
    (fits : config.batchSize.toNat + setup.keys.length < 2 ^ 64) (nodup : setup.keys.Nodup)
    {key : String} {source target source' target' : SideResult}
    (compared : Compared log key source target) (compared' : Compared log key source' target') :
    source = source' ∧ target = target' := by
  obtain ⟨f, mem, key_mem, -, ofSource, ofTarget⟩ :=
    h.exists_finish_of_compared sound fits nodup compared
  obtain ⟨f', mem', key_mem', -, ofSource', ofTarget'⟩ :=
    h.exists_finish_of_compared sound fits nodup compared'
  obtain rfl := h.finish_unique sound fits nodup mem mem' key_mem key_mem'
  rw [ofSource] at ofSource'
  rw [ofTarget] at ofTarget'
  exact ⟨Option.some.inj ofSource', Option.some.inj ofTarget'⟩

/-- The pair of results of a key whose batch succeeded was told a worker. -/
theorem exists_compared (h : Ended config setup log world) {f : Worker.Finish}
    (mem : f ∈ finishes config setup log) {results : Batch.Results}
    (brought : f.results? = some results) {key : String} (key_mem : key ∈ f.keys) :
    ∃ source target, Compared log key source target ∧
      f.verdict? key = compare source target := by
  obtain ⟨i, -, own⟩ := Worker.mem_teamFinishes.1 mem
  obtain ⟨s, stage, state, signal, told, finished⟩ := Worker.told_of_mem_finishes own
  obtain ⟨keys, -, ended⟩ := Worker.Finish.of?_eq_some finished
  have answer := Worker.answer_of_mem_teamFinishes h.schedule h.finished mem brought
  have slot := List.idxOf_lt_length_of_mem key_mem
  have present : ∀ side, ∃ r, (results.of side)[f.keys.idxOf key]? = some r := fun side =>
    ⟨_, List.getElem?_eq_getElem (Nat.lt_of_lt_of_eq slot (answer.length_of side).symm)⟩
  obtain ⟨source, ofSource⟩ := present .source
  obtain ⟨target, ofTarget⟩ := present .target
  have verdict : f.verdict? key = compare source target := by
    unfold Worker.Finish.verdict? Worker.Finish.result?
    rw [brought, Option.bind_some, Option.bind_some, ofSource, ofTarget]
    rfl
  refine ⟨source, target, ⟨s, stage, i, state, results, f.keys.idxOf key, ?_, ?_, ofSource, ofTarget⟩,
    verdict⟩
  · rcases ended with ⟨results', rfl, brought'⟩ | ⟨error, -, failed, -⟩
    · rw [brought] at brought'
      cases brought'
      exact told
    · rw [brought] at failed
      cases failed
  · rw [← keys, List.getElem?_eq_getElem slot, List.getElem_idxOf]

/-- A key whose batch failed is an error key and nothing else. -/
theorem reports_of_failed (h : Ended config setup log world) (sound : config.Sound)
    (fits : config.batchSize.toNat + setup.keys.length < 2 ^ 64) (nodup : setup.keys.Nodup)
    {f : Worker.Finish} (mem : f ∈ finishes config setup log) {key : String}
    (key_mem : key ∈ f.keys) (failed : f.results? = none) (place : Place) :
    Reports (tallyOf world.timeline).results key place ↔ place = .error := by
  have told := h.diffs_tells sound fits nodup mem key_mem
  have verdict : f.verdict? key = none := by
    simp [Worker.Finish.verdict?, Worker.Finish.result?, failed, Worker.verdictOn]
  rw [verdict] at told
  cases place with
  | missingFromSource => simp [Reports, told.contains_missingFromSource]
  | missingFromTarget => simp [Reports, told.contains_missingFromTarget]
  | mismatch => simp [Reports, told.contains_mismatch]
  | error => simpa [Reports] using h.mem_keysWithError.2 ⟨f, mem, key_mem, failed⟩

/-- A key whose batch succeeded is reported where its verdict belongs, and nowhere else. -/
theorem reports_of_succeeded (h : Ended config setup log world) (sound : config.Sound)
    (fits : config.batchSize.toNat + setup.keys.length < 2 ^ 64) (nodup : setup.keys.Nodup)
    {f : Worker.Finish} (mem : f ∈ finishes config setup log) {key : String}
    (key_mem : key ∈ f.keys) (succeeded : f.results?.isSome) (place : Place) :
    Reports (tallyOf world.timeline).results key place ↔
      match place with
      | .missingFromSource => ∃ t, f.verdict? key = some (.missingFromSource t)
      | .missingFromTarget => ∃ s, f.verdict? key = some (.missingFromTarget s)
      | .mismatch => ∃ s t, f.verdict? key = some (.mismatch s t)
      | .error => False := by
  have told := h.diffs_tells sound fits nodup mem key_mem
  cases place with
  | missingFromSource => exact told.contains_missingFromSource
  | missingFromTarget => exact told.contains_missingFromTarget
  | mismatch => exact told.contains_mismatch
  | error =>
      refine iff_of_false (fun reported => ?_) id
      obtain ⟨f', mem', key_mem', failed⟩ := h.mem_keysWithError.1 reported
      rw [h.finish_unique sound fits nodup mem mem' key_mem key_mem', failed] at succeeded
      cases succeeded

/-- A key of the run is reported in at most one place. -/
theorem reports_unique (h : Ended config setup log world) (sound : config.Sound)
    (fits : config.batchSize.toNat + setup.keys.length < 2 ^ 64) (nodup : setup.keys.Nodup)
    {key : String} (listed : key ∈ setup.keys) {p q : Place}
    (hp : Reports (tallyOf world.timeline).results key p)
    (hq : Reports (tallyOf world.timeline).results key q) : p = q := by
  obtain ⟨f, mem, key_mem⟩ := h.exists_finish sound fits listed
  cases brought : f.results? with
  | none =>
      rw [h.reports_of_failed sound fits nodup mem key_mem brought] at hp hq
      rw [hp, hq]
  | some results =>
      have succeeded : f.results?.isSome := by rw [brought]; rfl
      rw [h.reports_of_succeeded sound fits nodup mem key_mem succeeded] at hp hq
      cases p <;> cases q <;> grind

/-- A key of the run is reported nowhere exactly when the results that were told for it leave
nothing to report. -/
theorem not_reported_iff (h : Ended config setup log world) (sound : config.Sound)
    (fits : config.batchSize.toNat + setup.keys.length < 2 ^ 64) (nodup : setup.keys.Nodup)
    {key : String} (listed : key ∈ setup.keys) :
    (∀ place, ¬Reports (tallyOf world.timeline).results key place) ↔
      ∃ source target, Compared log key source target ∧
        DiffSet.Silent (compare source target) := by
  constructor
  · intro nowhere
    obtain ⟨f, mem, key_mem⟩ := h.exists_finish sound fits listed
    cases brought : f.results? with
    | none =>
        refine absurd ?_ (nowhere .error)
        exact (h.reports_of_failed sound fits nodup mem key_mem brought .error).2 rfl
    | some results =>
        have succeeded : f.results?.isSome := by rw [brought]; rfl
        have reported := h.reports_of_succeeded sound fits nodup mem key_mem succeeded
        obtain ⟨source, target, compared, verdict⟩ := h.exists_compared mem brought key_mem
        refine ⟨source, target, compared, ?_⟩
        rw [← verdict]
        cases found : f.verdict? key with
        | none => exact .inl rfl
        | some classification =>
            cases classification with
            | missingFromSource t =>
                exact absurd ((reported .missingFromSource).2 ⟨t, found⟩) (nowhere _)
            | missingFromTarget s =>
                exact absurd ((reported .missingFromTarget).2 ⟨s, found⟩) (nowhere _)
            | mismatch s t => exact absurd ((reported .mismatch).2 ⟨s, t, found⟩) (nowhere _)
            | agreement => exact .inr rfl
  · rintro ⟨source, target, compared, silent⟩ place reported
    obtain ⟨f, mem, key_mem, succeeded, ofSource, ofTarget⟩ :=
      h.exists_finish_of_compared sound fits nodup compared
    have verdict : f.verdict? key = compare source target := by
      unfold Worker.Finish.verdict?
      rw [ofSource, ofTarget]
      rfl
    rw [h.reports_of_succeeded sound fits nodup mem key_mem succeeded, verdict] at reported
    rcases silent with eq | eq <;> cases place <;> simp [eq] at reported

/-- What is reported is a key of the run. -/
theorem mem_keys_of_reports (h : Ended config setup log world) (sound : config.Sound)
    (fits : config.batchSize.toNat + setup.keys.length < 2 ^ 64) {key : String} {place : Place}
    (reported : Reports (tallyOf world.timeline).results key place) : key ∈ setup.keys := by
  by_contra new
  have told := h.diffs_tells_none sound fits new
  cases place with
  | missingFromSource => simpa using told.contains_missingFromSource.1 reported
  | missingFromTarget => simpa using told.contains_missingFromTarget.1 reported
  | mismatch => simpa using told.contains_mismatch.1 reported
  | error =>
      obtain ⟨f, mem, key_mem, -⟩ := h.mem_keysWithError.1 reported
      exact new (h.mem_keys sound fits mem key_mem)

end Ended

/-- However a run with a valid configuration unfolds that comes to a summary: every listed key is
counted as checked once, no key is an error key twice, what is reported is listed, and a listed key
is reported in at most one place, and in none exactly when the one pair of results that a worker was
told for it leaves nothing to report. -/
theorem classified_once {config : Config} {connector : Connector} {tree : FileTree}
    {log : List (Stage Worker.State WorkerEffect)} {trace : Trace} {summary : Summary}
    {content : Text.Bytes} {listed : List String} (valid : config.validate = .ok ())
    (reads : tree.read config.inputKeysPath = .ok content)
    (parses : KeyList.parse content = .ok listed)
    (fits : config.batchSize.toNat + listed.toFinset.card < 2 ^ 64)
    (unfolds : Unfolds config connector tree log trace) (ok : trace.outcome = .ok summary) :
    summary.totalKeys = listed.toFinset.card ∧
    summary.keysProcessed.toNat = listed.toFinset.card ∧
    summary.keysWithErrors.toNat = summary.results.keysWithError.length ∧
    summary.results.keysWithError.Nodup ∧
    (∀ key place, Reports summary.results key place → key ∈ listed) ∧
    ∀ key ∈ listed,
      (∀ p q, Reports summary.results key p → Reports summary.results key q → p = q) ∧
      (∀ source target source' target', Compared log key source target →
        Compared log key source' target' → source = source' ∧ target = target') ∧
      ((∀ place, ¬Reports summary.results key place) ↔
        ∃ source target, Compared log key source target ∧
          DiffSet.Silent (compare source target)) := by
  obtain ⟨setup, said, world, begins, ended, total, processed, errors, results, -⟩ := unfolds.ok ok
  obtain ⟨⟨content', listed', reads', parses', keys⟩, -, -⟩ := prepare_eq_ok begins
  rw [reads] at reads'
  cases reads'
  rw [parses] at parses'
  cases parses'
  have sound := config.sound_of_validate valid
  have nodup : setup.keys.Nodup := keys ▸ KeyList.nodup_firsts listed
  have count : setup.keys.length = listed.toFinset.card := keys ▸ KeyList.length_firsts listed
  have member : ∀ key, key ∈ setup.keys ↔ key ∈ listed := fun key => keys ▸ KeyList.mem_firsts
  rw [← count] at fits ⊢
  rw [processed, errors, results]
  refine ⟨total, ended.processed_toNat sound fits, ended.errors_toNat sound fits nodup,
    ended.nodup_keysWithError sound fits nodup, ?_, ?_⟩
  · intro key place reported
    exact (member key).1 (ended.mem_keys_of_reports sound fits reported)
  · intro key mem
    have own := (member key).2 mem
    exact ⟨fun p q hp hq => ended.reports_unique sound fits nodup own hp hq,
      fun _ _ _ _ compared compared' => ended.compared_unique sound fits nodup compared compared',
      ended.not_reported_iff sound fits nodup own⟩

/-- A source that fails to answer, and a target without documents. -/
def downSource : Connector := .ofStores (.failing "down") Bucket.empty.store none

/-- A run over two keys, one of them listed twice. -/
theorem classified_once_two_keys :
    ∃ (log : List (Stage Worker.State WorkerEffect)) (summary : Summary),
      Unfolds (.inMemory "") downSource threeKeysListed log
        (execute (.inMemory "") downSource threeKeysListed) ∧
      summary.totalKeys = 2 ∧ summary.keysProcessed.toNat = 2 ∧
      ∀ key ∈ ["a", "b", "a"],
        ∀ p q, Reports summary.results key p → Reports summary.results key q → p = q := by
  obtain ⟨log, unfolds, -⟩ := execute_unfolds (.inMemory "") downSource threeKeysListed
  obtain ⟨said, begins⟩ : ∃ said, prepare (.inMemory "") downSource threeKeysListed.read =
      (.ok ⟨["a", "b"], .failing "down", Bucket.empty.store⟩, said) := ⟨_, rfl⟩
  obtain ⟨summary, ok⟩ := execute_ok begins (by decide)
  have once := classified_once (Config.inMemory_valid "") threeKeysListed_reads
    threeKeysListed_parses (by decide) unfolds ok
  have card : (["a", "b", "a"] : List String).toFinset.card = 2 := by decide
  rw [card] at once
  obtain ⟨total, processed, -, -, -, each⟩ := once
  exact ⟨log, summary, unfolds, total, processed, fun key mem => (each key mem).1⟩

end ReplicaDiff.Run
