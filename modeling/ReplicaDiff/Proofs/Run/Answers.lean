/-
# ReplicaDiff.Proofs.Run.Answers — runs between stores that answer at once

When both stores answer at once, and a key always with the same answer, every
batch succeeds at its first attempt.  Whatever the number of workers, the size of
the batches, the deadline and the retries, a run has no error keys and tells of
each listed key how its two answers compare (`Unfolds.answered`).

It is first said of bare stores (`Ended.exists_finish_of_answers`), whose fetches
meet fates that are known (`answersOf`); a run between other stores that answer at
once leads to the same tally (`Ended.bare`).
-/
import ReplicaDiff.Proofs.Run.Retries
import ReplicaDiff.Proofs.World.AtOnce

namespace ReplicaDiff

set_option autoImplicit false

open ReplicaDiff.Worker ReplicaDiff.World

/-- A connector opens both sides of a run, and their stores answer at once, and a key always with
the same answer. -/
def Connector.Answers (connector : Connector) (config : Config) (files : Files)
    (answers : Side → String → Outcome) : Prop :=
  ∀ side, ∃ connection, connector files side (config.endpoint side) = .ok connection ∧
    connection.store.AnswersAtOnce (answers side)

namespace Run

/-- The fates of the fetches from stores that answer at once. -/
def answersOf (answers : Side → String → Outcome) : KeyFates :=
  fun side key _ => .ends (some (answers side key)) 0

theorem bare_obeys (answers : Side → String → Outcome) (side : Side) :
    (Store.bare (answers side)).Obeys (byKey (answersOf answers) side) (fun _ => 0) 0 :=
  .bare rfl fun _ _ _ => rfl

/-- Every attempt under a deadline that is not at once is answered in time. -/
theorem firstAnswered_answersOf (answers : Side → String → Outcome) {timeout : Duration}
    (positive : 0 < timeout.ticks) {total : Nat} (one_le : 1 ≤ total) (keys : List String) :
    FirstAnswered (answersOf answers) timeout total keys 1 where
  one_le := Nat.le_refl 1
  le_total := one_le
  answered side key mem := by simp [answersOf, Fate.answerWithin, positive]
  least a pos lt := by omega

namespace Ended

variable {config : Config} {keys : List String} {answers : Side → String → Outcome}
  {source target : Store} {log : List (Stage Worker.State WorkerEffect)}
  {world : World Worker.State WorkerEffect}

/-- Between bare stores, the batch of a key succeeds, with the verdict of how the answers compare. -/
theorem exists_finish_of_answers
    (h : Ended config ⟨keys, .bare (answers .source), .bare (answers .target)⟩ log world)
    (prompt : ∀ s ∈ log, s.Prompt) (sound : config.Sound)
    (fits : config.batchSize.toNat + keys.length < 2 ^ 64) (nodup : keys.Nodup) {key : String}
    (mem : key ∈ keys) :
    ∃ f ∈ finishes config ⟨keys, .bare (answers .source), .bare (answers .target)⟩ log,
      key ∈ f.keys ∧ f.results?.isSome ∧
      f.verdict? key = compareOutcomes (answers .source key) (answers .target key) := by
  have all : teamKeys (workers config keys) = keys :=
    flatten_batchKeys config keys sound.workers h.room fits
  have positive := sound.batchTimeout_pos
  have off : ∀ side key n outcome, answersOf answers side key n ≠
      .ends (some outcome) config.workerSettings.batchTimeout.ticks := by
    intro side key n outcome same
    have zero : 0 = config.workerSettings.batchTimeout.ticks := (Fate.ends.inj same).2
    omega
  have fated := h.fated prompt sound (bare_obeys answers .source) (bare_obeys answers .target)
  rw [← all] at mem
  obtain ⟨w, own, mem⟩ := List.mem_flatMap.1 mem
  obtain ⟨batch, batch_mem, mem⟩ := List.mem_flatten.1 mem
  obtain ⟨f, finished, rfl, first, -⟩ := h.exists_first fated (by rwa [all]) off own batch_mem
  obtain ⟨-, results, succeeded, brought⟩ := first.attempts_eq
    (firstAnswered_answersOf answers positive
      config.workerSettings.retry.totalAttempts_pos f.keys)
  refine ⟨f, finished, mem, by rw [succeeded]; rfl, ?_⟩
  exact verdict_of_brought succeeded brought mem rfl rfl

/-- A run between stores that answer at once is a run between bare stores with the same answers, as
far as its tally is concerned. -/
theorem bare (h : Ended config ⟨keys, source, target⟩ log world)
    (ofSource : source.AnswersAtOnce (answers .source))
    (ofTarget : target.AnswersAtOnce (answers .target)) :
    Ended config ⟨keys, .bare (answers .source), .bare (answers .target)⟩
      (log.map (·.bare answers)) (world.withBare answers) where
  room := h.room
  schedule := (h.schedule.bare (atOnce_initial ofSource ofTarget _)).1
  finished := h.finished

section AtOnce

variable (h : Ended config ⟨keys, source, target⟩ log world) (prompt : ∀ s ∈ log, s.Prompt)
  (sound : config.Sound) (fits : config.batchSize.toNat + keys.length < 2 ^ 64)
  (nodup : keys.Nodup) (ofSource : source.AnswersAtOnce (answers .source))
  (ofTarget : target.AnswersAtOnce (answers .target))

include h prompt sound fits nodup ofSource ofTarget

/-- Between stores that answer at once no batch fails. -/
theorem keysWithError_of_answers : (tallyOf world.timeline).results.keysWithError = [] := by
  have ended := h.bare ofSource ofTarget
  have prompt' := prompt_bare answers prompt
  refine List.eq_nil_iff_forall_not_mem.2 fun key failed => ?_
  obtain ⟨f, finished, mem, silent⟩ := ended.mem_keysWithError.1 failed
  obtain ⟨f', finished', mem', succeeded, -⟩ := ended.exists_finish_of_answers prompt' sound fits
    nodup (ended.mem_keys sound fits finished mem)
  rw [← ended.finish_unique sound fits nodup finished finished' mem mem', silent] at succeeded
  cases succeeded

/-- What is found of a key is how its two answers compare, if it is a key of the run. -/
theorem diffs_tells_of_answers (key : String) :
    (tallyOf world.timeline).results.diffs.Tells key
      (if key ∈ keys then compareOutcomes (answers .source key) (answers .target key)
        else none) := by
  have ended := h.bare ofSource ofTarget
  have prompt' := prompt_bare answers prompt
  by_cases mem : key ∈ keys
  · obtain ⟨f, finished, key_mem, -, verdict⟩ :=
      ended.exists_finish_of_answers prompt' sound fits nodup mem
    rw [if_pos mem, ← verdict]
    exact ended.diffs_tells sound fits nodup finished key_mem
  · rw [if_neg mem]
    exact ended.diffs_tells_none sound fits mem

/-- No error is counted. -/
theorem errors_of_answers : (tallyOf world.timeline).errors = 0 := by
  apply UInt64.toNat_inj.1
  rw [h.errors_toNat sound fits nodup,
    h.keysWithError_of_answers prompt sound fits nodup ofSource ofTarget]
  rfl

end AtOnce

end Ended

/-- What a run over some listed keys comes to when its stores answer at once: every different key is
counted, none is an error key, and each is reported as its two answers compare. -/
structure Summary.Answered (summary : Summary) (listed : List String)
    (answers : Side → String → Outcome) : Prop where
  total : summary.totalKeys = listed.toFinset.card
  processed : summary.keysProcessed.toNat = listed.toFinset.card
  errors : summary.keysWithErrors = 0
  checked : summary.results.keysWithError = []
  tells : ∀ key, summary.results.diffs.Tells key
    (if key ∈ listed then compareOutcomes (answers .source key) (answers .target key) else none)

/-- With a valid configuration and stores that answer at once a run comes to what their answers say,
whatever its batches, deadlines and retries, and whatever its workers as long as there can be a share
for each. -/
theorem Unfolds.answered {config : Config} {connector : Connector} {tree : FileTree}
    {log : List (Stage Worker.State WorkerEffect)} {trace : Trace} {content : Text.Bytes}
    {listed : List String} {answers : Side → String → Outcome}
    (unfolds : Unfolds config connector tree log trace) (prompt : ∀ s ∈ log, s.Prompt)
    (valid : config.validate = .ok ()) (reads : tree.read config.inputKeysPath = .ok content)
    (parses : KeyList.parse content = .ok listed)
    (fits : config.batchSize.toNat + listed.toFinset.card < 2 ^ 64)
    (answered : connector.Answers config tree.read answers)
    (room : config.numWorkers ≤ mostShares) :
    ∃ summary, trace.outcome = .ok summary ∧ summary.Answered listed answers := by
  have sound := config.sound_of_validate valid
  obtain ⟨source, opens, ofSource⟩ := answered .source
  obtain ⟨target, opens', ofTarget⟩ := answered .target
  obtain ⟨summary, world, ok, ended, total, processed, errors, results, -⟩ :=
    unfolds.exists_ended reads parses opens opens' room
  have nodup : (KeyList.firsts listed).Nodup := KeyList.nodup_firsts listed
  rw [← KeyList.length_firsts] at fits
  refine ⟨summary, ok, ?_, ?_, ?_, ?_, fun key => ?_⟩
  · rw [total, KeyList.length_firsts]
  · rw [processed, ended.processed_toNat sound fits, KeyList.length_firsts]
  · rw [errors, ended.errors_of_answers prompt sound fits nodup ofSource ofTarget]
  · rw [results, ended.keysWithError_of_answers prompt sound fits nodup ofSource ofTarget]
  · have tells := ended.diffs_tells_of_answers prompt sound fits nodup ofSource ofTarget key
    simp only [KeyList.mem_firsts] at tells
    rw [results]
    exact tells

end Run

end ReplicaDiff
