/-
# ReplicaDiff.Proofs.Run.Budget — every run ends, and in time

Workers may be fired in any order of the tasks that are due together: they never
get stuck and they come to an end, whatever their stores do.  Each has then sent
the batches that it came to at least once and no more often than its policy allows.
These are all of its batches just when each can be cut out of the keys, and else the
worker has broken off.  It has taken no more time than the deadlines and pauses of
all attempts together (`Worker.InBudget`).  Nothing happens after the last of them
has stopped.

A run waits for its reporter after that.  The reporter is told of the end by then
and stops no later, so that a run takes the time of its slowest worker and no more
(`ends_within_budget`).
-/
import ReplicaDiff.Proofs.Partition.Batches
import ReplicaDiff.Proofs.Progress
import ReplicaDiff.Proofs.Run.Losses
import ReplicaDiff.Proofs.Run.Retries
import ReplicaDiff.Proofs.Worker.Pace

namespace ReplicaDiff

set_option autoImplicit false

open ReplicaDiff.World ReplicaDiff.Worker

namespace Worker

/-- What a worker has done with its batches when it has stopped, and when it was told the last
thing. -/
structure InBudget (worker : Worker) (i : Nat) (log : List (Stage State WorkerEffect)) : Prop where
  /-- It has sent the batches that it came to, in order and each as often as it may. -/
  batches : ∃ counts : List Nat, counts.length = worker.batchKeys.length ∧
    (∀ n ∈ counts, 1 ≤ n ∧ n ≤ worker.settings.retry.totalAttempts.toNat) ∧
    sent State.react (heard i log) = (List.zipWith List.replicate counts worker.batchKeys).flatten
  /-- These are the first of its batches. -/
  first : worker.batchKeys <+: worker.batchSpans.map fun s => s.slice worker.keys
  /-- They are all of them just when every batch can be cut out of the keys. -/
  all : worker.batchKeys = worker.batchSpans.map (fun s => s.slice worker.keys) ↔
    worker.inBounds = true
  /-- Then it has finished, and else it has broken off. -/
  ended : overs (done State.react (heard i log)) = [(worker.id, !worker.inBounds)]
  time : worker.settings.Whole →
    toldAt i log * 1000000 ≤ worker.batchSpans.length * worker.settings.batchNanos

variable {source target : Store} {team : List Worker} {log : List (Stage State WorkerEffect)}
  {w : World State WorkerEffect}

/-- Every worker that has stopped has kept within its budget. -/
theorem inBudget (h : Schedule State.react (initial source target (team.map State.initial)) log w)
    (prompt : ∀ s ∈ log, s.Prompt) (finished : w.isOver = true) {i : Nat} {worker : Worker}
    (present : team[i]? = some worker) : InBudget worker i log := by
  obtain ⟨c, -, play⟩ := h.plays_to_end finished (begins_of_present present)
  refine ⟨counts_of_play play, worker.batchKeys_prefix, worker.batchKeys_eq_iff,
    overs_of_play play, fun whole => ?_⟩
  have number : worker.batchKeys.length ≤ worker.batchSpans.length := by
    simpa using worker.batchKeys_prefix.length_le
  exact Nat.le_trans (toldAt_le_nanos h prompt present whole) (Nat.mul_le_mul_right _ number)

end Worker

namespace Run

/-- The reporter of a run. -/
def reporter (config : Config) (total : Nat) : Progress.Reporter :=
  ⟨UInt64.ofNat total, config.reportInterval, ⟨0, 0⟩⟩

/-- What the reporter of a run has said when the world of its workers is over, and when it has
stopped. -/
def reported (config : Config) (setup : Setup) (world : World Worker.State WorkerEffect) :
    Progress.Report :=
  (reporter config setup.keys.length).report (history world.timeline world.now) world.now

/-- Workers say nothing of the end of a run. -/
theorem quiet_notices (timeline : Array (Nat × WorkerEffect)) :
    ∀ n ∈ (contributionsOf timeline).filterMap fun c => (notice? c.2).map fun n => (c.1, n),
      n.2.Quiet := by
  intro n mem
  obtain ⟨c, -, noticed⟩ := List.mem_filterMap.1 mem
  obtain ⟨notice, said, rfl⟩ := Option.map_eq_some_iff.1 noticed
  unfold notice? at said
  split at said
  · cases said
    simp [Progress.Notice.Quiet]
  · cases said
    simp [Progress.Notice.Quiet]
  · cases said

/-- The reporter of a run has stopped when the workers have. -/
theorem stopped_of_reported {config : Config} (valid : config.validate = .ok ()) (setup : Setup)
    (world : World Worker.State WorkerEffect) :
    ∃ t ≤ world.now, (reported config setup world).stopped = some t :=
  (reporter config setup.keys.length).stopped_of_stopMoment
    (config.reportInterval_pos_of_validate valid)
    (Progress.stopMoment_of_signal (quiet_notices world.timeline) world.now) (Nat.le_refl _)

/-- Without keys there are no workers. -/
theorem workers_nil {config : Config} (some : config.numWorkers ≠ 0) : workers config [] = [] := by
  refine List.eq_nil_iff_forall_not_mem.2 fun w mem => ?_
  obtain ⟨-, -, nonempty, share⟩ := mem_workers mem
  obtain ⟨-, inside⟩ := (evenShares_tiles config.numWorkers (UInt64.ofNat 0) some).bounds share
  have empty : w.span.isEmpty = true :=
    decide_eq_true (UInt64.le_iff_toNat_le.2 (Nat.le_trans inside (Nat.zero_le _)))
  rw [empty] at nonempty
  cases nonempty

/-- The clock of the workers of a run stops with the slowest of them. -/
theorem Ended.now_eq_sup {config : Config} {setup : Setup} {log : List (Stage State WorkerEffect)}
    {world : World State WorkerEffect} (h : Ended config setup log world) :
    world.now = (Finset.range (workers config setup.keys).length).sup fun i => toldAt i log := by
  rw [h.schedule.now_eq_sup h.finished, List.length_map]

/-- A run that could be prepared takes the time of its slowest worker, and none if it breaks off. -/
theorem Unfolds.elapsed_eq_sup {config : Config} {connector : Connector} {tree : FileTree}
    {log : List (Stage State WorkerEffect)} {trace : Trace} {setup : Setup} {said : List Event}
    (unfolds : Unfolds config connector tree log trace)
    (begins : prepare config connector tree.read = (.ok setup, said)) :
    trace.elapsed =
      (Finset.range (workers config setup.keys).length).sup fun i => toldAt i log := by
  rcases UInt64.lt_or_le mostShares config.numWorkers with many | room
  · obtain ⟨rfl, rfl⟩ := unfolds.eq_brokenOff begins many
    rw [workers_of_lt many]
    rfl
  · obtain ⟨world, tree', report, ended, -, rfl⟩ := unfolds.eq_ended begins room
    exact ended.now_eq_sup

/-- Every run ends within its budget.  Over any stores, workers with any shares of any keys and any
settings come to an end, in whatever order the tasks are fired that are due together: there is a limit
to the number of tasks, and there is a task to fire until all workers have stopped.  Then each worker
is within its budget, and the clock stands at the time of the slowest one.  A run that could be
prepared with a valid configuration, and with no more workers than there can be shares, comes to a
summary and takes exactly that time, and none without keys; it says which workers are lost, and its
reporter has stopped by then.  With more workers it breaks off before any time has passed. -/
theorem ends_within_budget (source target : Store) (team : List Worker) :
    ((runAll source target team).isOver = true ∧
      ∀ (log : List (Stage State WorkerEffect)) (w : World State WorkerEffect),
        Schedule State.react (initial source target (team.map State.initial)) log w →
        (∀ s ∈ log, s.Prompt) →
        log.length ≤ team.foldr (fun worker n => worker.cost source target + n) 1 ∧
        (w.isOver = false → ∃ s : Stage State WorkerEffect, s.world = w ∧ s.Prompt) ∧
        (w.isOver = true →
          (∀ i worker, team[i]? = some worker → InBudget worker i log) ∧
          w.now = (Finset.range team.length).sup fun i => toldAt i log)) ∧
    ∀ (config : Config) (connector : Connector) (tree : FileTree) (setup : Setup)
      (said : List Event) (log : List (Stage State WorkerEffect)) (trace : Trace),
      config.validate = .ok () → prepare config connector tree.read = (.ok setup, said) →
      Unfolds config connector tree log trace → (∀ s ∈ log, s.Prompt) →
      (config.numWorkers ≤ mostShares →
        (∃ summary, trace.outcome = .ok summary) ∧
        trace.elapsed =
          (Finset.range (workers config setup.keys).length).sup (fun i => toldAt i log) ∧
        (setup.keys = [] → trace.elapsed = 0) ∧
        ∃ world, Ended config setup log world ∧
          interleave (toldOf (workers config setup.keys) world.timeline)
            (reported config setup world).events <:+: trace.events ∧
          (awaited world.timeline 0 (workers config setup.keys)).map (·.2) =
            ((workers config setup.keys).filter (!·.inBounds)).map (fun w => .workerFailed w.id) ∧
          ∃ t ≤ trace.elapsed, (reported config setup world).stopped = some t) ∧
      (mostShares < config.numWorkers → trace.outcome = .brokenOff ∧ trace.elapsed = 0) := by
  constructor
  · refine ⟨isOver_runAll source target team, fun log w schedule prompt => ⟨?_, ?_, ?_⟩⟩
    · have stages := schedule.length_add_load_le_allowance (affordable _)
      exact Nat.le_trans (Nat.le_of_add_right_le stages) (allowance_le_fuel source target team)
    · exact schedule.exists_stage prompt
    · intro finished
      refine ⟨fun i worker present => inBudget schedule prompt finished present, ?_⟩
      rw [schedule.now_eq_sup finished, List.length_map]
  · intro config connector tree setup said log trace valid begins unfolds prompt
    have slowest := unfolds.elapsed_eq_sup begins
    refine ⟨fun room => ?_, fun many => ?_⟩
    · obtain ⟨world, tree', report, ended, -, rfl⟩ := unfolds.eq_ended begins room
      refine ⟨⟨_, rfl⟩, slowest, fun none => ?_, world, ended,
        (List.infix_append _ _ _).trans (List.infix_append _ _ _), ended.awaited_eq,
        stopped_of_reported valid setup world⟩
      rw [slowest, none, workers_nil (config.sound_of_validate valid).workers]
      rfl
    · obtain ⟨-, rfl⟩ := unfolds.eq_brokenOff begins many
      exact ⟨rfl, rfl⟩

/-- A run with two batches, one of which fails at all of its four attempts, takes no longer than the
deadlines and pauses of four attempts at one batch. -/
theorem ends_within_budget_late_answer :
    ∃ log, Unfolds (.inMemory "") lateStores threeKeysListed log
        (execute (.inMemory "") lateStores threeKeysListed) ∧
      (∀ s ∈ log, s.Prompt) ∧ (execute (.inMemory "") lateStores threeKeysListed).elapsed ≤ 4070 := by
  obtain ⟨log, unfolds, prompt⟩ := execute_unfolds (.inMemory "") lateStores threeKeysListed
  refine ⟨log, unfolds, prompt, ?_⟩
  obtain ⟨setup, said, keys, begins⟩ : ∃ setup said, setup.keys = KeyList.firsts ["a", "b", "a"] ∧
      prepare (.inMemory "") lateStores threeKeysListed.read = (.ok setup, said) :=
    ⟨_, _, rfl, (exists_prepare_ok threeKeysListed_reads threeKeysListed_parses rfl rfl).choose_spec⟩
  obtain ⟨team, runs⟩ :=
    ends_within_budget setup.source setup.target (workers (.inMemory "") setup.keys)
  obtain ⟨-, slowest, -, world, ended, -, -, -⟩ :=
    (runs _ _ _ setup said log _ (Config.inMemory_valid "") begins unfolds prompt).1 (by decide)
  obtain ⟨inBudget, -⟩ := (team.2 log world ended.schedule prompt).2.2 ended.finished
  rw [slowest]
  refine Finset.sup_le fun i mem => ?_
  have own := List.getElem_mem (Finset.mem_range.1 mem)
  have one : ∀ w ∈ workers (.inMemory "") (KeyList.firsts ["a", "b", "a"]),
      w.batchSpans.length = 1 := by decide
  have time := (inBudget i _ (List.getElem?_eq_getElem (Finset.mem_range.1 mem))).time
  rw [settings_of_mem_workers own, one _ (keys ▸ own)] at time
  have limit : (Config.inMemory "").workerSettings.batchNanos = 4070000000 := by decide
  have spent := time ⟨by decide, by decide, by decide⟩
  omega

-- The limit is reached, since no fetch of `b` from the source ever ends.
example : (execute (.inMemory "") lateStores threeKeysListed).elapsed = 4070 := by decide +kernel

/-- The second of two keys, in batches as large as a word allows. -/
def hugeBatch : Worker where
  id := 1
  keys := ["a", "b"]
  span := ⟨1, 2⟩
  settings := hugeBatches.workerSettings

/-- The worker has a batch and is over without having sent it, whatever its stores do. -/
theorem hugeBatch_not_sent :
    hugeBatch.batchSpans.length = 1 ∧
      ∀ (source target : Store) (log : List (Stage State WorkerEffect))
        (w : World State WorkerEffect),
        Schedule State.react (initial source target ([hugeBatch].map State.initial)) log w →
        w.isOver = true → sent State.react (heard 0 log) = [] ∧
          overs (done State.react (heard 0 log)) = [(1, true)] := by
  refine ⟨by decide +kernel, fun source target log w schedule finished => ?_⟩
  obtain ⟨c, -, play⟩ := schedule.plays_to_end finished (begins_of_present (i := 0) rfl)
  have none : hugeBatch.batchKeys = [] := by decide +kernel
  have lost : hugeBatch.inBounds = false := by decide +kernel
  obtain ⟨counts, number, -, rounds⟩ := counts_of_play play
  rw [none, List.length_nil, List.length_eq_zero_iff] at number
  refine ⟨by rw [rounds, number]; rfl, ?_⟩
  rw [overs_of_play play, Worker.oversIn, lost]
  rfl

end Run

end ReplicaDiff
