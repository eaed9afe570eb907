/-
# ReplicaDiff.Proofs.Run.Retries — a batch is what its first complete attempt brings

The stores deal each key its fates in turn.  However a run unfolds whose tasks are
fired as soon as they are due, a batch is over with the first attempt at which
every fetch is answered in time, and its keys are reported as the answers of that
attempt compare; without such an attempt among those that are allowed, its keys
are error keys.  Each key has been fetched once for each attempt at its batch, and
no other batch or attempt has any influence (`retried_afresh`).
-/
import ReplicaDiff.Proofs.Run.Unfolding
import ReplicaDiff.Proofs.Worker.Yields

namespace ReplicaDiff

set_option autoImplicit false

open ReplicaDiff.Batch ReplicaDiff.World ReplicaDiff.Worker

/-- The deadline of the batches of a valid configuration is not at once. -/
theorem Config.Sound.batchTimeout_pos {config : Config} (sound : config.Sound) :
    0 < config.workerSettings.batchTimeout.ticks := by
  have some : config.timeoutSecs.toNat ≠ 0 := fun zero =>
    sound.timeout (UInt64.toNat_inj.1 zero)
  show 0 < (Duration.ofSecs config.timeoutSecs).ticks
  unfold Duration.ticks Duration.ofSecs
  dsimp only
  split
  · decide
  · omega

/-- A worker sends rounds under its own deadline only. -/
theorem Worker.timely {w : Worker} (positive : 0 < w.settings.batchTimeout.ticks) :
    Timely State.react (State.initial w) := by
  intro history s keys timeout play
  obtain ⟨-, rfl⟩ := (standing_of_play play).sends keys timeout rfl
  exact positive

/-- A store that deals fates by key has seen each key as often as it has been fetched. -/
theorem World.Fated.seen_eq {σ ε : Type} {behave : Behaviour σ ε} {fates : KeyFates}
    {source target : Store} {states : List σ} {log : List (Stage σ ε)} {w : World σ ε}
    (h : Fated behave (byKey fates) source target states log w)
    (deals : source = .dealing (byKey fates .source))
    (deals' : target = .dealing (byKey fates .target)) (key : String) (side : Side) :
    (w.store side).layers.map (·.seen.of key) = [callsFor (callsIn log) side key] := by
  have one : (w.store side).layers.length = 1 := by
    refine (congrFun h.schedule.depth_eq side).trans ?_
    cases side with
    | source =>
        show source.layers.length = 1
        rw [deals]
        rfl
    | target =>
        show target.layers.length = 1
        rw [deals']
        rfl
  exact ((h.timed.obeys side).seen one).2 key

namespace Run

theorem settings_of_mem_workers {config : Config} {keys : List String} {w : Worker}
    (mem : w ∈ workers config keys) : w.settings = config.workerSettings := (mem_workers mem).2.1

namespace Ended

variable {config : Config} {setup : Setup} {log : List (Stage Worker.State WorkerEffect)}
  {world : World Worker.State WorkerEffect} {fates : KeyFates}

theorem fated (h : Ended config setup log world) (prompt : ∀ s ∈ log, s.Prompt)
    (sound : config.Sound)
    (source : setup.source.Obeys (byKey fates .source) (fun _ => 0) 0)
    (target : setup.target.Obeys (byKey fates .target) (fun _ => 0) 0) :
    Fated State.react (byKey fates) setup.source setup.target
      ((workers config setup.keys).map State.initial) log world where
  schedule := h.schedule
  prompt := prompt
  source := source
  target := target
  timely start mem := by
    obtain ⟨w, own, rfl⟩ := List.mem_map.1 mem
    refine Worker.timely ?_
    rw [settings_of_mem_workers own]
    exact sound.batchTimeout_pos

/-- A batch of a worker is one of those that are over, and has been attempted until it first brought
results, or as often as allowed. -/
theorem exists_first (h : Ended config setup log world)
    (fated : Fated State.react (byKey fates) setup.source setup.target
      ((workers config setup.keys).map State.initial) log world)
    (nodup : (teamKeys (workers config setup.keys)).Nodup)
    (off : ∀ side key n outcome,
      fates side key n ≠ .ends (some outcome) config.workerSettings.batchTimeout.ticks)
    {w : Worker} (mem : w ∈ workers config setup.keys) {batch : List String}
    (batch_mem : batch ∈ w.batchKeys) :
    ∃ f ∈ finishes config setup log, f.keys = batch ∧
      f.First (yieldOf fates config.workerSettings.batchTimeout)
        config.workerSettings.retry.totalAttempts.toNat ∧
      ∀ key ∈ batch, ∀ side, callsFor (callsIn log) side key = f.attempts.toNat := by
  obtain ⟨i, present⟩ := List.getElem?_of_mem mem
  have settings := settings_of_mem_workers mem
  have limit : ∀ w ∈ workers config setup.keys,
      w.settings.batchTimeout = config.workerSettings.batchTimeout := fun w mem => by
    rw [settings_of_mem_workers mem]
  rw [← batches_of_over h.schedule h.finished present] at batch_mem
  obtain ⟨f, own, rfl⟩ := List.mem_map.1 batch_mem
  obtain ⟨c, p, -, -, -, -, trying⟩ := exists_trying h.schedule present
    (honest_of_fated fated nodup limit off i w present)
  have first := trying.first f own
  rw [settings] at first
  refine ⟨f, mem_teamFinishes.2 ⟨i, (List.getElem?_eq_some_iff.1 present).1, own⟩, rfl, first, ?_⟩
  intro key key_mem side
  exact callsFor_of_mem_finishes fated nodup limit off h.finished present own key_mem side

/-- The verdict on a key of a batch that succeeded is how the answers of that attempt compare. -/
theorem verdict_of_brought {f : Finish} {timeout : Duration} {k : Nat} {results : Results}
    (results_eq : f.results? = some results)
    (brought : yieldOf fates timeout f.keys k = some results) {key : String} (mem : key ∈ f.keys)
    {source target : Outcome} {after after' : Nat}
    (ends : fates .source key (k - 1) = .ends (some source) after)
    (ends' : fates .target key (k - 1) = .ends (some target) after') :
    f.verdict? key = compareOutcomes source target := by
  have answered := yieldOf_isSome_iff.1 (by rw [brought]; rfl)
  have outcome : ∀ {fate : Fate} {outcome : Outcome} {after : Nat},
      (fate.answerWithin timeout.ticks).isSome → fate = .ends (some outcome) after →
        fate.answerWithin timeout.ticks = some outcome := by
    rintro fate outcome after some rfl
    by_cases early : after < timeout.ticks
    · simp [Fate.answerWithin, early]
    · simp [Fate.answerWithin, early] at some
  unfold Finish.verdict? Finish.result?
  rw [results_eq, Option.bind_some, Option.bind_some, result_of_yieldOf brought mem .source,
    result_of_yieldOf brought mem .target, outcome (answered .source key mem) ends,
    outcome (answered .target key mem) ends']
  rfl

end Ended

/-- However a run unfolds with a valid configuration, if its stores deal each key fates in turn, of
which no answer comes exactly at the deadline, and if what is due is fired as soon as it is: the run
comes to a summary, and each batch to the first of its attempts at which every fetch is answered in
time.  Each key of the batch has been fetched on each side once for each attempt up to that one, is
no error key, and is reported as its two answers then compare.  Without such an attempt, each key
has been fetched as often as there are attempts, and is an error key, once, and nothing else.  Only a
run with more workers than there can be shares comes to no summary, and it has no batches. -/
theorem retried_afresh {config : Config} {connector : Connector} {tree : FileTree}
    {log : List (Stage Worker.State WorkerEffect)} {trace : Trace} {content : Text.Bytes}
    {listed : List String} {source target : Connection} {fates : KeyFates}
    (valid : config.validate = .ok ()) (reads : tree.read config.inputKeysPath = .ok content)
    (parses : KeyList.parse content = .ok listed)
    (fits : config.batchSize.toNat + listed.toFinset.card < 2 ^ 64)
    (opens : connector tree.read .source config.source = .ok source)
    (opens' : connector tree.read .target config.target = .ok target)
    (deals : source.store = .dealing (byKey fates .source))
    (deals' : target.store = .dealing (byKey fates .target))
    (off : ∀ side key n outcome,
      fates side key n ≠ .ends (some outcome) config.workerSettings.batchTimeout.ticks)
    (unfolds : Unfolds config connector tree log trace) (prompt : ∀ s ∈ log, s.Prompt) :
    (config.numWorkers ≤ mostShares →
      ∃ (summary : Summary) (stores : Side → Store), trace.outcome = .ok summary ∧
        trace.stores = some (stores .source, stores .target) ∧
        ∀ w ∈ workers config (KeyList.firsts listed), ∀ batch ∈ w.batchKeys,
          (∀ k, FirstAnswered fates config.workerSettings.batchTimeout
              config.workerSettings.retry.totalAttempts.toNat batch k → ∀ key ∈ batch,
            (∀ side, (stores side).layers.map (·.seen.of key) = [k]) ∧
            key ∉ summary.results.keysWithError ∧
            ∀ s t after after', fates .source key (k - 1) = .ends (some s) after →
              fates .target key (k - 1) = .ends (some t) after' →
              summary.results.diffs.Tells key (compareOutcomes s t)) ∧
          ((∀ k, 1 ≤ k → k ≤ config.workerSettings.retry.totalAttempts.toNat →
              ¬Answered fates config.workerSettings.batchTimeout batch k) → ∀ key ∈ batch,
            (∀ side, (stores side).layers.map (·.seen.of key) =
              [config.workerSettings.retry.totalAttempts.toNat]) ∧
            summary.results.keysWithError.count key = 1 ∧
            summary.results.diffs.Tells key none)) ∧
    (mostShares < config.numWorkers →
      trace.outcome = .brokenOff ∧ workers config (KeyList.firsts listed) = []) := by
  refine ⟨fun room => ?_, fun many =>
    ⟨(unfolds.exists_brokenOff reads parses opens opens' many).2.1, workers_of_lt many _⟩⟩
  have sound := config.sound_of_validate valid
  obtain ⟨summary, world, ok, ended, -, -, -, results, stores⟩ :=
    unfolds.exists_ended reads parses opens opens' room
  have nodup : (KeyList.firsts listed).Nodup := KeyList.nodup_firsts listed
  have fits' : config.batchSize.toNat + (KeyList.firsts listed).length < 2 ^ 64 := by
    rwa [KeyList.length_firsts]
  -- The batches share no key, so that a key is fetched for its own batch alone.
  have all : teamKeys (workers config (KeyList.firsts listed)) = KeyList.firsts listed :=
    flatten_batchKeys config _ sound.workers room fits'
  have fated : Fated State.react (byKey fates) source.store target.store
      ((workers config (KeyList.firsts listed)).map State.initial) log world :=
    ended.fated prompt sound (deals ▸ Store.dealing_obeys _) (deals' ▸ Store.dealing_obeys _)
  refine ⟨summary, world.store, ok, stores, fun w mem batch batch_mem => ?_⟩
  obtain ⟨f, finished, rfl, first, calls⟩ :=
    ended.exists_first fated (by rwa [all]) off mem batch_mem
  have fetched : ∀ key ∈ f.keys, ∀ side,
      (world.store side).layers.map (·.seen.of key) = [f.attempts.toNat] := by
    intro key key_mem side
    rw [fated.seen_eq deals deals', calls key key_mem side]
  rw [results]
  constructor
  · intro k answered key key_mem
    obtain ⟨attempts, brought, succeeded, yields⟩ := first.attempts_eq answered
    refine ⟨fun side => by rw [fetched key key_mem side, attempts], ?_, ?_⟩
    · intro failed
      obtain ⟨f', finished', key_mem', silent⟩ := ended.mem_keysWithError.1 failed
      rw [← ended.finish_unique sound fits' nodup finished finished' key_mem key_mem',
        succeeded] at silent
      cases silent
    · intro s t after after' ends ends'
      rw [← Ended.verdict_of_brought succeeded yields key_mem ends ends']
      exact ended.diffs_tells sound fits' nodup finished key_mem
  · intro never key key_mem
    obtain ⟨attempts, silent⟩ := first.failed_of_not_answered never
    refine ⟨fun side => by rw [fetched key key_mem side, attempts], ?_, ?_⟩
    · refine List.count_eq_one_of_mem (ended.nodup_keysWithError sound fits' nodup) ?_
      exact ended.mem_keysWithError.2 ⟨f, finished, key_mem, silent⟩
    · have told := ended.diffs_tells sound fits' nodup finished key_mem
      simpa [Finish.verdict?, Finish.result?, silent, verdictOn] using told

/-- The first fetch of `a` from the source answers after its deadline; no fetch of another key from
the source ends. -/
def lateAnswer : KeyFates
  | .source, "a", 0 => .ends (some (.ok ⟨[111], 0, 0, 0⟩)) 1005
  | .source, "a", _ => .ends (some (.ok ⟨[110], 0, 0, 0⟩)) 20
  | .source, _, _ => .never
  | .target, _, _ => .ends (some (.error .notFound)) 3

/-- The stores of two sides that deal these fates. -/
def lateStores : Connector :=
  .ofStores (.dealing (byKey lateAnswer .source)) (.dealing (byKey lateAnswer .target)) none

/-- A run in which the late answer of an attempt comes during the next one. -/
theorem retried_afresh_late_answer :
    ∃ (log : List (Stage Worker.State WorkerEffect)) (summary : Summary) (stores : Side → Store),
      Unfolds (.inMemory "") lateStores threeKeysListed log
        (execute (.inMemory "") lateStores threeKeysListed) ∧
      (execute (.inMemory "") lateStores threeKeysListed).outcome = .ok summary ∧
      (stores .source).layers.map (·.seen.of "a") = [2] ∧
      summary.results.diffs.Tells "a" (some (.missingFromTarget ⟨[110], 0, 0, 0⟩)) ∧
      (stores .source).layers.map (·.seen.of "b") = [4] ∧
      summary.results.keysWithError.count "b" = 1 := by
  obtain ⟨log, unfolds, prompt⟩ := execute_unfolds (.inMemory "") lateStores threeKeysListed
  have off : ∀ side key n outcome, lateAnswer side key n ≠ .ends (some outcome)
      (Config.inMemory "").workerSettings.batchTimeout.ticks := by
    intro side key n outcome
    show lateAnswer side key n ≠ .ends (some outcome) 1000
    unfold lateAnswer
    split <;> simp
  obtain ⟨summary, stores, ok, -, batches⟩ := (retried_afresh (Config.inMemory_valid "")
    threeKeysListed_reads threeKeysListed_parses (by decide) rfl rfl rfl rfl off unfolds prompt).1
    (by decide)
  have shares : (workers (.inMemory "") ["a", "b"]).map (·.batchKeys) = [[["a"]], [["b"]]] := rfl
  have batch : ∀ key ∈ ["a", "b"], ∃ w ∈ workers (.inMemory "") ["a", "b"], [key] ∈ w.batchKeys := by
    intro key mem
    have share : [[key]] ∈ (workers (.inMemory "") ["a", "b"]).map (·.batchKeys) := by
      rw [shares]
      simpa using mem
    obtain ⟨w, mem, eq⟩ := List.mem_map.1 share
    exact ⟨w, mem, by rw [eq]; exact List.mem_singleton_self _⟩
  obtain ⟨w, mem, own⟩ := batch "a" (by simp)
  obtain ⟨w', mem', own'⟩ := batch "b" (by simp)
  have second : FirstAnswered lateAnswer (Config.inMemory "").workerSettings.batchTimeout
      (Config.inMemory "").workerSettings.retry.totalAttempts.toNat ["a"] 2 := by
    refine ⟨by decide, by decide, fun side key mem => ?_, fun a pos lt answered => ?_⟩
    · rw [List.mem_singleton.1 mem]
      cases side <;> rfl
    · obtain rfl : a = 1 := by omega
      cases answered .source "a" (by simp)
  have never : ∀ k, 1 ≤ k → k ≤ 4 →
      ¬Answered lateAnswer (Config.inMemory "").workerSettings.batchTimeout ["b"] k := by
    intro k _ _ answered
    cases answered .source "b" (by simp)
  obtain ⟨fetched, -, told⟩ := (batches w mem ["a"] own).1 2 second "a" (by simp)
  obtain ⟨fetched', unchecked, -⟩ := (batches w' mem' ["b"] own').2 never "b" (by simp)
  exact ⟨log, summary, stores, unfolds, ok, fetched .source,
    told (.ok ⟨[110], 0, 0, 0⟩) (.error .notFound) 20 3 rfl rfl, fetched' .source, unchecked⟩

end Run

end ReplicaDiff
