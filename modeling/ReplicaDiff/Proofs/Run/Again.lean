/-
# ReplicaDiff.Proofs.Run.Again — a run over the keys that a run has found to differ

The keys that differ are listed once each (`Summary.Answered.nodup_diffKeys`) in a
file that can be the key list of another run.  Between the same stores, which
answer at once and always alike, that run finds the same differences and nothing
else, whatever its settings (`verified_again`), as long as there can be a share for
each of its workers: whether a key differs depends on its two answers alone, so that
neither the other keys nor the workers and batches among which they are divided
matter.
-/
import ReplicaDiff.Proofs.Run.Answers
import ReplicaDiff.Proofs.Run.Files

namespace ReplicaDiff.Run

set_option autoImplicit false

open ReplicaDiff.Output (Artifact KeepsDiffKeys)
open ReplicaDiff.World

variable {answers : Side → String → Outcome} {config : Config} {connector : Connector}
  {tree : FileTree} {trace : Trace}

/-- A way in which a run with a valid configuration can unfold when its stores answer at once and
what is due is fired as soon as it is. -/
structure Answering (answers : Side → String → Outcome) (config : Config) (connector : Connector)
    (tree : FileTree) (trace : Trace) : Prop where
  valid : config.validate = .ok ()
  answered : connector.Answers config tree.read answers
  unfolds : ∃ log, Unfolds config connector tree log trace ∧ ∀ s ∈ log, s.Prompt

/-- Executing a run is one of these ways. -/
theorem answering_execute (valid : config.validate = .ok ())
    (answered : connector.Answers config tree.read answers) :
    Answering answers config connector tree (execute config connector tree) :=
  ⟨valid, answered, execute_unfolds config connector tree⟩

theorem Answering.exists_answered (h : Answering answers config connector tree trace)
    {content : Text.Bytes} {listed : List String}
    (reads : tree.read config.inputKeysPath = .ok content)
    (parses : KeyList.parse content = .ok listed)
    (fits : config.batchSize.toNat + listed.toFinset.card < 2 ^ 64)
    (room : config.numWorkers ≤ mostShares) :
    ∃ summary, trace.outcome = .ok summary ∧ summary.Answered listed answers := by
  obtain ⟨log, unfolds, prompt⟩ := h.unfolds
  exact unfolds.answered prompt h.valid reads parses fits h.answered room

/-- With more workers than there can be shares it breaks off. -/
theorem Answering.breaksOff (h : Answering answers config connector tree trace)
    {content : Text.Bytes} {listed : List String}
    (reads : tree.read config.inputKeysPath = .ok content)
    (parses : KeyList.parse content = .ok listed) (many : mostShares < config.numWorkers) :
    trace.outcome = .brokenOff ∧ trace.tree = tree := by
  obtain ⟨log, unfolds, -⟩ := h.unfolds
  obtain ⟨source, opens, -⟩ := h.answered .source
  obtain ⟨target, opens', -⟩ := h.answered .target
  obtain ⟨-, outcome, -, files, -⟩ := unfolds.exists_brokenOff reads parses opens opens' many
  exact ⟨outcome, files⟩

/-- The keys that differ are read where a run has written them. -/
theorem Answering.reads_diffKeys (h : Answering answers config connector tree trace)
    {summary : Summary} (ok : trace.outcome = .ok summary)
    (kept : KeepsDiffKeys tree config.outputLayout summary.output) :
    trace.tree.read (config.outputLayout.path .diffKeys) =
      .ok (Output.writeKeys summary.results.diffKeys) := by
  obtain ⟨log, unfolds, -⟩ := h.unfolds
  exact kept.read (unfolds.writes ok)

namespace Summary.Answered

variable {summary summary' : Summary} {listed listed' : List String}

/-- No key that differs is listed twice. -/
theorem nodup_diffKeys (h : summary.Answered listed answers) : summary.results.diffKeys.Nodup :=
  DiffSet.nodup_keys fun key => ⟨_, h.tells key⟩

/-- There are as many different keys that differ as there are entries. -/
theorem card_diffKeys (h : summary.Answered listed answers)
    (same : listed'.Perm summary.results.diffKeys) :
    listed'.toFinset.card = summary.results.diffs.size := by
  rw [List.toFinset_eq_of_perm _ _ same, List.toFinset_card_of_nodup h.nodup_diffKeys]
  exact DiffSet.length_keys summary.results.diffs

/-- No more keys differ than have been listed. -/
theorem size_le (h : summary.Answered listed answers) :
    summary.results.diffs.size ≤ listed.toFinset.card := by
  rw [← h.card_diffKeys (.refl _)]
  refine Finset.card_le_card fun key mem => ?_
  rw [List.mem_toFinset] at mem ⊢
  have differs := (h.tells key).mem_keys.1 mem
  by_contra new
  rw [if_neg new] at differs
  exact differs (.inl rfl)

/-- A run over the keys that another one has found to differ finds the same. -/
theorem diffs_eq (h : summary.Answered listed answers) (h' : summary'.Answered listed' answers)
    (same : listed'.Perm summary.results.diffKeys) :
    summary'.results.diffs = summary.results.diffs := by
  refine DiffSet.ext_of_tells fun key => ?_
  have found : key ∈ listed' ↔ _ := same.mem_iff.trans (h.tells key).mem_keys
  have tells' := h'.tells key
  by_cases mem : key ∈ listed'
  · -- The key differs, so that it was listed before, and compares as it did then.
    have differs := found.1 mem
    have before : key ∈ listed := by
      by_contra new
      rw [if_neg new] at differs
      exact differs (.inl rfl)
    have tells := h.tells key
    rw [if_pos before] at tells
    rw [if_pos mem] at tells'
    exact ⟨_, tells', tells⟩
  · rw [if_neg mem] at tells'
    exact ⟨none, tells', (h.tells key).of_silent (not_not.1 fun differs => mem (found.2 differs))⟩

end Summary.Answered

/-- A run with a valid configuration comes to a summary when its stores answer at once, and always
alike, and lists the keys that differ once each.  However they are ordered, and whatever the other
settings of a second run are whose stores have the same answers: over these keys it finds the same
differences, counts as many keys as there are of them, and lists the same keys again.  Either run
breaks off, and leaves the files alone, if it has more workers than there can be shares. -/
theorem verified_again {content : Text.Bytes} {listed : List String}
    (first : Answering answers config connector tree trace)
    (reads : tree.read config.inputKeysPath = .ok content)
    (parses : KeyList.parse content = .ok listed)
    (fits : config.batchSize.toNat + listed.toFinset.card < 2 ^ 64) :
    (mostShares < config.numWorkers → trace.outcome = .brokenOff ∧ trace.tree = tree) ∧
    (config.numWorkers ≤ mostShares →
      ∃ summary, trace.outcome = .ok summary ∧ summary.results.diffKeys.Nodup ∧
        (KeepsDiffKeys tree config.outputLayout summary.output →
          trace.tree.read (config.outputLayout.path .diffKeys) =
            .ok (Output.writeKeys summary.results.diffKeys)) ∧
        ∀ (keys : List String) (config' : Config) (connector' : Connector) (tree' : FileTree)
          (trace' : Trace), keys.Perm summary.results.diffKeys →
          Answering answers config' connector' tree' trace' →
          tree'.read config'.inputKeysPath = .ok (Output.writeKeys keys) →
          config'.batchSize.toNat + summary.results.diffs.size < 2 ^ 64 →
          (mostShares < config'.numWorkers → trace'.outcome = .brokenOff ∧ trace'.tree = tree') ∧
          (config'.numWorkers ≤ mostShares →
            ∃ summary', trace'.outcome = .ok summary' ∧
              summary'.results.diffs = summary.results.diffs ∧
              summary'.totalKeys = summary.results.diffs.size ∧
              summary'.keysProcessed.toNat = summary.results.diffs.size ∧
              (KeepsDiffKeys tree' config'.outputLayout summary'.output →
                ∃ bytes listed', trace'.tree.read (config'.outputLayout.path .diffKeys) = .ok bytes ∧
                  KeyList.parse bytes = .ok listed' ∧ ∀ key, key ∈ listed' ↔ key ∈ keys))) := by
  refine ⟨first.breaksOff reads parses, fun room => ?_⟩
  obtain ⟨summary, ok, answered⟩ := first.exists_answered reads parses fits room
  refine ⟨summary, ok, answered.nodup_diffKeys, first.reads_diffKeys ok, ?_⟩
  intro keys config' connector' tree' trace' same second reads' fits'
  refine ⟨second.breaksOff reads' (Output.parse_writeKeys keys), fun room' => ?_⟩
  have card := answered.card_diffKeys same
  rw [← card] at fits'
  obtain ⟨summary', ok', answered'⟩ :=
    second.exists_answered reads' (Output.parse_writeKeys keys) fits' room'
  have diffs := answered.diffs_eq answered' same
  refine ⟨summary', ok', diffs, answered'.total.trans card, answered'.processed.trans card, ?_⟩
  intro kept
  refine ⟨_, _, second.reads_diffKeys ok' kept, Output.parse_writeKeys _, fun key => ?_⟩
  rw [same.mem_iff, Snapshot.diffKeys, Snapshot.diffKeys, diffs]

/-- A source without documents, and a target with one for `a`. -/
def onlyA : Connector :=
  .ofStores Bucket.empty.store (Bucket.empty.insert "a" ⟨[1], 2, 3, 4⟩).store none

/-- Settings for a run, with one worker and larger batches, over the keys that a run with the other
settings has found. -/
def secondRun : Config :=
  { Config.inMemory "" with
    inputDiffKeysFile := "mutationDiffKeys", outputDiffKeysFile := "again"
    numWorkers := 1, batchSize := 7, maxSendBatchRetries := 0 }

theorem onlyA_answers (config : Config) (files : Files) :
    onlyA.Answers config files fun
      | .source => Bucket.empty.get
      | .target => (Bucket.empty.insert "a" ⟨[1], 2, 3, 4⟩).get := by
  intro side
  cases side <;> exact ⟨_, rfl, Store.answersAtOnce_bare _⟩

theorem secondRun_valid : secondRun.validate = .ok () :=
  Config.Valid.validate_eq ⟨⟨rfl, rfl, rfl, by decide, by decide, by decide, by decide⟩, by decide⟩

/-- A second run over the file that the first one has left finds the same. -/
theorem verified_again_one_worker :
    ∃ summary summary' : Summary,
      (execute (.inMemory "") onlyA threeKeysListed).outcome = .ok summary ∧
      (execute secondRun onlyA (execute (.inMemory "") onlyA threeKeysListed).tree).outcome =
        .ok summary' ∧
      summary'.results.diffs = summary.results.diffs ∧
      summary'.totalKeys = summary.results.diffs.size := by
  have first := answering_execute (Config.inMemory_valid "")
    (onlyA_answers (.inMemory "") threeKeysListed.read)
  have fits : (Config.inMemory "").batchSize.toNat + (["a", "b", "a"] : List String).toFinset.card <
    2 ^ 64 := by decide
  obtain ⟨summary, ok, -, left, again⟩ :=
    (verified_again first threeKeysListed_reads threeKeysListed_parses fits).2 (by decide)
  obtain ⟨said, begins⟩ : ∃ said, prepare (.inMemory "") onlyA threeKeysListed.read = (_, said) :=
    exists_prepare_ok threeKeysListed_reads threeKeysListed_parses rfl rfl
  obtain ⟨log, summary₁, unfolds, ok₁, complete⟩ := exists_complete begins (by decide) fun _ => rfl
  obtain rfl : summary₁ = summary := Conclusion.ok.inj (ok₁.symm.trans ok)
  have kept : KeepsDiffKeys threeKeysListed (Config.inMemory "").outputLayout summary₁.output := by
    refine ⟨fun error failed => ?_, fun a ne same => ?_⟩
    · rw [List.isEmpty_iff.1 complete] at failed
      cases failed
    · cases a with
      | diffKeys => exact ne rfl
      | errorKeys => exact absurd (Except.ok.inj same) (by decide)
      | diffDetails => exact absurd (Except.ok.inj same) (by decide)
  obtain ⟨summary₂, ok₂, answered⟩ :=
    first.exists_answered threeKeysListed_reads threeKeysListed_parses fits (by decide)
  obtain rfl : summary₂ = summary₁ := Conclusion.ok.inj (ok₂.symm.trans ok)
  have few : summary₂.results.diffs.size ≤ 2 := answered.size_le
  obtain ⟨summary', ok', diffs, total, -⟩ := (again _ secondRun onlyA _ _ (.refl _)
    (answering_execute secondRun_valid (onlyA_answers _ _)) (left kept)
    (by show 7 + _ < 2 ^ 64; omega)).2 (by decide)
  exact ⟨summary₂, summary', ok, ok', diffs, total⟩

/-- Settings for a second run with one worker more than there can be shares. -/
def crowdedSecondRun : Config := { secondRun with numWorkers := 576460752303423488 }

/-- With valid settings a second run breaks off over the file that the first one has left. -/
theorem crowded_second_run :
    crowdedSecondRun.validate = .ok () ∧
      (execute (.inMemory "") onlyA threeKeysListed).tree.read crowdedSecondRun.inputKeysPath =
        .ok (Output.writeKeys ["a"]) ∧
      (execute crowdedSecondRun onlyA (execute (.inMemory "") onlyA threeKeysListed).tree).outcome =
        .brokenOff := by
  refine ⟨Config.Valid.validate_eq ?_, by decide +kernel, by decide +kernel⟩
  exact ⟨⟨by decide, rfl, rfl, by decide, by decide, by decide, by decide⟩, by decide⟩

end ReplicaDiff.Run
