/-
# ReplicaDiff.Proofs.Run.Unfolding — the ways in which a run can unfold

A run is refused, or it breaks off because there cannot be as many shares as it has
workers, or its workers are fired in the order of some schedule until all of them
have stopped, and it ends with what they have added up to (`Unfolds`).  `execute` is
one of these ways (`execute_unfolds`), the one in which tasks that are due together
are fired in the order in which they were put on the agenda.

What a run has begun with follows from its files alone (`prepare_eq_ok`), and
what its workers have checked is every listed key once (`Ended.keys_eq`,
`Ended.nodup`).
-/
import ReplicaDiff.Proofs.Config.Validity
import ReplicaDiff.Proofs.KeyList
import ReplicaDiff.Proofs.Partition
import ReplicaDiff.Proofs.Worker.Ending
import ReplicaDiff.Proofs.Worker.Team

namespace ReplicaDiff

set_option autoImplicit false

open ReplicaDiff.World

/-- What a valid configuration promises. -/
structure Config.Sound (config : Config) : Prop where
  workers : config.numWorkers ≠ 0
  batch : config.batchSize ≠ 0
  timeout : config.timeoutSecs ≠ 0

theorem Config.sound_of_validate {config : Config} (valid : config.validate = .ok ()) :
    config.Sound :=
  have passes := (valid_of_validate valid).toPasses
  ⟨passes.workers, passes.batch, passes.timeout⟩

namespace Run

/-- The world in which the workers of a run are about to begin. -/
def beginning (config : Config) (setup : Setup) : World Worker.State WorkerEffect :=
  World.initial setup.source setup.target
    ((workers config setup.keys).map Worker.State.initial)

/-- What a run has come to when the world of its workers is over. -/
def concluded (config : Config) (setup : Setup) (world : World Worker.State WorkerEffect) :
    Verified :=
  .ofWorld config setup.keys.length (workers config setup.keys) world

/-- The workers of a run have been fired, in the order of a schedule, until all have stopped. -/
structure Ended (config : Config) (setup : Setup) (log : List (Stage Worker.State WorkerEffect))
    (world : World Worker.State WorkerEffect) : Prop where
  room : config.numWorkers ≤ mostShares
  schedule : Schedule Worker.State.react (beginning config setup) log world
  finished : world.isOver = true

/-- What a run leaves behind that is refused or breaks off, or whose workers are fired in the order of
a schedule. -/
inductive Unfolds (config : Config) (connector : Connector) (tree : FileTree) :
    List (Stage Worker.State WorkerEffect) → Trace → Prop where
  | refused {error : StartupError} {said : List Event}
      (fails : prepare config connector tree.read = (.error error, said)) :
      Unfolds config connector tree [] (.refused error said tree)
  | brokenOff {setup : Setup} {said : List Event}
      (begins : prepare config connector tree.read = (.ok setup, said))
      (many : mostShares < config.numWorkers) :
      Unfolds config connector tree [] (.brokenOff config setup said tree)
  | ended {setup : Setup} {said : List Event} {log : List (Stage Worker.State WorkerEffect)}
      {world : World Worker.State WorkerEffect} {tree' : FileTree} {report : Output.Report}
      (begins : prepare config connector tree.read = (.ok setup, said))
      (ended : Ended config setup log world)
      (writes : Output.writeAll tree config.outputLayout
        (concluded config setup world).tally.results = (tree', report)) :
      Unfolds config connector tree log (.ended (concluded config setup world) said report tree')

/-- The order in which `verify` fires the workers is a prompt schedule that ends. -/
theorem exists_ended {config : Config} (room : config.numWorkers ≤ mostShares) (setup : Setup) :
    ∃ log world, Ended config setup log world ∧ (∀ s ∈ log, s.Prompt) ∧
      verify config setup = concluded config setup world := by
  obtain ⟨log, schedule, prompt, -⟩ := exists_prompt_schedule Worker.State.react
    ((workers config setup.keys).foldr (fun w n => w.cost setup.source setup.target + n) 1)
    (beginning config setup) (.initial _ _ _)
  exact ⟨log, _, ⟨room, schedule, Worker.isOver_runAll _ _ _⟩, fun s mem => (prompt s mem).1, rfl⟩

/-- Executing a run is one of the ways in which it can unfold. -/
theorem execute_unfolds (config : Config) (connector : Connector) (tree : FileTree) :
    ∃ log, Unfolds config connector tree log (execute config connector tree) ∧
      ∀ s ∈ log, s.Prompt := by
  unfold execute
  cases prepared : prepare config connector tree.read with
  | mk outcome said =>
      cases outcome with
      | error error =>
          rw [check, prepared]
          exact ⟨[], .refused prepared, by simp⟩
      | ok setup =>
          rcases UInt64.lt_or_le mostShares config.numWorkers with many | room
          · rw [check_of_lt prepared many]
            exact ⟨[], .brokenOff prepared many, by simp⟩
          · obtain ⟨log, world, ended, prompt, verified⟩ := exists_ended room setup
            rw [check_of_le prepared room, verified]
            exact ⟨log, .ended prepared ended rfl, prompt⟩

/-- Only a run that could be prepared comes to a summary. -/
theorem Unfolds.ok {config : Config} {connector : Connector} {tree : FileTree}
    {log : List (Stage Worker.State WorkerEffect)} {trace : Trace} {summary : Summary}
    (unfolds : Unfolds config connector tree log trace) (ok : trace.outcome = .ok summary) :
    ∃ setup said world, prepare config connector tree.read = (.ok setup, said) ∧
      Ended config setup log world ∧ summary.totalKeys = setup.keys.length ∧
      summary.keysProcessed = (tallyOf world.timeline).processed ∧
      summary.keysWithErrors = (tallyOf world.timeline).errors ∧
      summary.results = (tallyOf world.timeline).results ∧
      trace.stores = some (world.source, world.target) := by
  cases unfolds with
  | refused fails => cases ok
  | brokenOff begins many => cases ok
  | @ended setup said log world tree' report begins ended writes =>
      cases ok
      exact ⟨setup, said, world, begins, ended, rfl, rfl, rfl, rfl, rfl⟩

/-- A run that could be prepared breaks off if it has more workers than there can be shares. -/
theorem Unfolds.eq_brokenOff {config : Config} {connector : Connector} {tree : FileTree}
    {log : List (Stage Worker.State WorkerEffect)} {trace : Trace} {setup : Setup}
    {said : List Event} (unfolds : Unfolds config connector tree log trace)
    (begins : prepare config connector tree.read = (.ok setup, said))
    (many : mostShares < config.numWorkers) :
    log = [] ∧ trace = .brokenOff config setup said tree := by
  cases unfolds with
  | refused fails =>
      rw [begins] at fails
      cases fails
  | brokenOff begins' _ =>
      rw [begins] at begins'
      cases begins'
      exact ⟨rfl, rfl⟩
  | ended begins' ended writes => exact absurd many (UInt64.not_lt.2 ended.room)

/-- Else its workers end and it comes to a summary of what they have added up to. -/
theorem Unfolds.eq_ended {config : Config} {connector : Connector} {tree : FileTree}
    {log : List (Stage Worker.State WorkerEffect)} {trace : Trace} {setup : Setup}
    {said : List Event} (unfolds : Unfolds config connector tree log trace)
    (begins : prepare config connector tree.read = (.ok setup, said))
    (room : config.numWorkers ≤ mostShares) :
    ∃ world tree' report, Ended config setup log world ∧
      Output.writeAll tree config.outputLayout (concluded config setup world).tally.results =
        (tree', report) ∧
      trace = .ended (concluded config setup world) said report tree' := by
  cases unfolds with
  | refused fails =>
      rw [begins] at fails
      cases fails
  | brokenOff begins' many => exact absurd many (UInt64.not_lt.2 room)
  | ended begins' ended writes =>
      rw [begins] at begins'
      cases begins'
      exact ⟨_, _, _, ended, writes, rfl⟩

/-- Executing a run that could be prepared comes to a summary, unless it has too many workers. -/
theorem execute_ok {config : Config} {connector : Connector} {tree : FileTree} {setup : Setup}
    {said : List Event} (begins : prepare config connector tree.read = (.ok setup, said))
    (room : config.numWorkers ≤ mostShares) :
    ∃ summary, (execute config connector tree).outcome = .ok summary := by
  obtain ⟨log, unfolds, -⟩ := execute_unfolds config connector tree
  obtain ⟨world, tree', report, -, -, ended⟩ := unfolds.eq_ended begins room
  exact ⟨_, congrArg Trace.outcome ended⟩

/-- A run begins whose key list can be read and whose stores can be opened. -/
theorem exists_prepare_ok {config : Config} {connector : Connector} {files : Files}
    {content : Text.Bytes} {listed : List String} {source target : Connection}
    (reads : files config.inputKeysPath = .ok content) (parses : KeyList.parse content = .ok listed)
    (opens : connector files .source config.source = .ok source)
    (opens' : connector files .target config.target = .ok target) :
    ∃ said, prepare config connector files =
      (.ok ⟨KeyList.firsts listed, source.store, target.store⟩, said) := by
  simp [prepare, KeyList.load, reads, parses, connect, Config.endpoint, opens, opens']

/-- A directory with a key list of `a`, `b` and once more `a`. -/
def threeKeysListed : FileTree :=
  (FileTree.bare []).put ["diffKeys"]
    (.file [91, 34, 97, 34, 44, 34, 98, 34, 44, 34, 97, 34, 93])

theorem threeKeysListed_reads : threeKeysListed.read (Config.inMemory "").inputKeysPath =
    .ok [91, 34, 97, 34, 44, 34, 98, 34, 44, 34, 97, 34, 93] := rfl

theorem threeKeysListed_parses : KeyList.parse
    [91, 34, 97, 34, 44, 34, 98, 34, 44, 34, 97, 34, 93] = .ok ["a", "b", "a"] := rfl

/-- However a run unfolds whose key list can be read and whose stores can be opened, its workers end
and it comes to a summary of what they have added up to, unless it has too many of them. -/
theorem Unfolds.exists_ended {config : Config} {connector : Connector} {tree : FileTree}
    {log : List (Stage Worker.State WorkerEffect)} {trace : Trace} {content : Text.Bytes}
    {listed : List String} {source target : Connection}
    (unfolds : Unfolds config connector tree log trace)
    (reads : tree.read config.inputKeysPath = .ok content)
    (parses : KeyList.parse content = .ok listed)
    (opens : connector tree.read .source config.source = .ok source)
    (opens' : connector tree.read .target config.target = .ok target)
    (room : config.numWorkers ≤ mostShares) :
    ∃ summary world, trace.outcome = .ok summary ∧
      Ended config ⟨KeyList.firsts listed, source.store, target.store⟩ log world ∧
      summary.totalKeys = (KeyList.firsts listed).length ∧
      summary.keysProcessed = (tallyOf world.timeline).processed ∧
      summary.keysWithErrors = (tallyOf world.timeline).errors ∧
      summary.results = (tallyOf world.timeline).results ∧
      trace.stores = some (world.source, world.target) := by
  obtain ⟨said, begins⟩ := exists_prepare_ok reads parses opens opens'
  obtain ⟨world, tree', report, ended, -, rfl⟩ := unfolds.eq_ended begins room
  exact ⟨_, world, rfl, ended, rfl, rfl, rfl, rfl, rfl⟩

/-- With too many workers it breaks off, and neither the files nor the stores have changed. -/
theorem Unfolds.exists_brokenOff {config : Config} {connector : Connector} {tree : FileTree}
    {log : List (Stage Worker.State WorkerEffect)} {trace : Trace} {content : Text.Bytes}
    {listed : List String} {source target : Connection}
    (unfolds : Unfolds config connector tree log trace)
    (reads : tree.read config.inputKeysPath = .ok content)
    (parses : KeyList.parse content = .ok listed)
    (opens : connector tree.read .source config.source = .ok source)
    (opens' : connector tree.read .target config.target = .ok target)
    (many : mostShares < config.numWorkers) :
    log = [] ∧ trace.outcome = .brokenOff ∧ trace.elapsed = 0 ∧ trace.tree = tree ∧
      trace.stores = some (source.store, target.store) := by
  obtain ⟨said, begins⟩ := exists_prepare_ok reads parses opens opens'
  obtain ⟨rfl, rfl⟩ := unfolds.eq_brokenOff begins many
  exact ⟨rfl, rfl, rfl, rfl, rfl⟩

/-- A run that has begun has the keys of its list, without repetitions, and the stores that its
connector has opened. -/
theorem prepare_eq_ok {config : Config} {connector : Connector} {files : Files} {setup : Setup}
    {said : List Event} (begins : prepare config connector files = (.ok setup, said)) :
    (∃ content listed, files config.inputKeysPath = .ok content ∧
      KeyList.parse content = .ok listed ∧ setup.keys = KeyList.firsts listed) ∧
    (∃ connection, connector files .source config.source = .ok connection ∧
      setup.source = connection.store) ∧
    ∃ connection, connector files .target config.target = .ok connection ∧
      setup.target = connection.store := by
  have opened : ∀ {side : Side} {store : Store} {events : List Event},
      connect config connector files side = (.ok store, events) →
      ∃ connection, connector files side (config.endpoint side) = .ok connection ∧
        store = connection.store := by
    intro side store events h
    unfold connect at h
    dsimp only at h
    split at h
    · cases h
    · rename_i connection opens
      cases h
      exact ⟨connection, opens, rfl⟩
  unfold prepare at begins
  split at begins
  · cases begins
  · rename_i keys loading loads
    split at begins
    · cases begins
    · rename_i source events connects
      split at begins
      · cases begins
      · rename_i target events' connects'
        cases begins
        refine ⟨?_, opened connects, opened connects'⟩
        unfold KeyList.load at loads
        split at loads
        · cases loads
        · rename_i content reads
          split at loads
          · cases loads
          · rename_i listed parses
            cases loads
            exact ⟨content, listed, reads, parses, rfl⟩

namespace Ended

variable {config : Config} {setup : Setup} {log : List (Stage Worker.State WorkerEffect)}
  {world : World Worker.State WorkerEffect}

/-- The batches of a run that are over. -/
def finishes (config : Config) (setup : Setup) (log : List (Stage Worker.State WorkerEffect)) :
    List Worker.Finish :=
  Worker.teamFinishes (workers config setup.keys).length log

/-- The keys of the batches that are over are the keys of the run, each where it belongs. -/
theorem keys_eq (h : Ended config setup log world) (sound : config.Sound)
    (fits : config.batchSize.toNat + setup.keys.length < 2 ^ 64) :
    (finishes config setup log).flatMap (·.keys) = setup.keys := by
  unfold finishes
  rw [Worker.keys_teamFinishes h.schedule h.finished]
  exact flatten_batchKeys config setup.keys sound.workers h.room fits

/-- A key of the run is in one of the batches that are over. -/
theorem exists_finish (h : Ended config setup log world) (sound : config.Sound)
    (fits : config.batchSize.toNat + setup.keys.length < 2 ^ 64) {key : String}
    (mem : key ∈ setup.keys) : ∃ f ∈ finishes config setup log, key ∈ f.keys := by
  rw [← h.keys_eq sound fits] at mem
  exact List.mem_flatMap.1 mem

/-- The keys of a batch that is over are keys of the run. -/
theorem mem_keys (h : Ended config setup log world) (sound : config.Sound)
    (fits : config.batchSize.toNat + setup.keys.length < 2 ^ 64) {f : Worker.Finish}
    (mem : f ∈ finishes config setup log) {key : String} (key_mem : key ∈ f.keys) :
    key ∈ setup.keys := by
  rw [← h.keys_eq sound fits]
  exact List.mem_flatMap.2 ⟨f, mem, key_mem⟩

/-- The batch of a key is over once. -/
theorem finish_unique (h : Ended config setup log world) (sound : config.Sound)
    (fits : config.batchSize.toNat + setup.keys.length < 2 ^ 64) (nodup : setup.keys.Nodup)
    {f f' : Worker.Finish} (mem : f ∈ finishes config setup log)
    (mem' : f' ∈ finishes config setup log) {key : String} (key_mem : key ∈ f.keys)
    (key_mem' : key ∈ f'.keys) : f = f' := by
  rw [← h.keys_eq sound fits] at nodup
  obtain ⟨i, present⟩ := List.getElem?_of_mem mem
  obtain ⟨j, present'⟩ := List.getElem?_of_mem mem'
  obtain rfl := Worker.index_eq_of_mem nodup present present' key_mem key_mem'
  exact Option.some.inj (present.symm.trans present')

/-- A key is an error key when a batch with it has failed. -/
theorem mem_keysWithError (h : Ended config setup log world) {key : String} :
    key ∈ (tallyOf world.timeline).results.keysWithError ↔
      ∃ f ∈ finishes config setup log, key ∈ f.keys ∧ f.results? = none := by
  rw [(Worker.keysWithError_perm h.schedule h.finished).mem_iff, List.mem_flatMap]
  constructor
  · rintro ⟨f, mem, key_mem⟩
    unfold Worker.Finish.uncheckedKeys at key_mem
    split at key_mem
    · rename_i failed
      exact ⟨f, mem, key_mem, Option.isNone_iff_eq_none.1 failed⟩
    · cases key_mem
  · rintro ⟨f, mem, key_mem, failed⟩
    refine ⟨f, mem, ?_⟩
    unfold Worker.Finish.uncheckedKeys
    rw [failed]
    exact key_mem

/-- No key is an error key twice. -/
theorem nodup_keysWithError (h : Ended config setup log world) (sound : config.Sound)
    (fits : config.batchSize.toNat + setup.keys.length < 2 ^ 64) (nodup : setup.keys.Nodup) :
    (tallyOf world.timeline).results.keysWithError.Nodup := by
  rw [(Worker.keysWithError_perm h.schedule h.finished).nodup_iff]
  rw [← h.keys_eq sound fits] at nodup
  refine List.Nodup.sublist ?_ nodup
  have sublist : ∀ finished : List Worker.Finish,
      (finished.flatMap (·.uncheckedKeys)).Sublist (finished.flatMap (·.keys)) := by
    intro finished
    induction finished with
    | nil => exact .slnil
    | cons f finished ih =>
        rw [List.flatMap_cons, List.flatMap_cons]
        refine List.Sublist.append ?_ ih
        unfold Worker.Finish.uncheckedKeys
        split
        · exact .refl _
        · exact List.nil_sublist _
  exact sublist _

/-- The differences tell of the key of a batch the verdict of the batch. -/
theorem diffs_tells (h : Ended config setup log world) (sound : config.Sound)
    (fits : config.batchSize.toNat + setup.keys.length < 2 ^ 64) (nodup : setup.keys.Nodup)
    {f : Worker.Finish} (mem : f ∈ finishes config setup log) {key : String}
    (key_mem : key ∈ f.keys) :
    (tallyOf world.timeline).results.diffs.Tells key (f.verdict? key) := by
  refine Worker.diffs_tells h.schedule h.finished
    (fun _ own => inBounds_of_mem_workers config setup.keys sound.workers fits own) ?_ mem key_mem
  rw [show Worker.teamFinishes (workers config setup.keys).length log =
    finishes config setup log from rfl, h.keys_eq sound fits]
  exact nodup

/-- They tell nothing of a key that is none of the run. -/
theorem diffs_tells_none (h : Ended config setup log world) (sound : config.Sound)
    (fits : config.batchSize.toNat + setup.keys.length < 2 ^ 64) {key : String}
    (new : key ∉ setup.keys) : (tallyOf world.timeline).results.diffs.Tells key none :=
  Worker.diffs_tells_none h.schedule h.finished fun _ mem key_mem =>
    new (h.mem_keys sound fits mem key_mem)

/-- All keys are counted as processed. -/
theorem processed_toNat (h : Ended config setup log world) (sound : config.Sound)
    (fits : config.batchSize.toNat + setup.keys.length < 2 ^ 64) :
    (tallyOf world.timeline).processed.toNat = setup.keys.length := by
  have all := h.keys_eq sound fits
  unfold finishes at all
  rw [Worker.processed_eq h.schedule h.finished (by rw [all]; omega), all, UInt64.toNat_ofNat',
    Nat.mod_eq_of_lt (by omega)]

/-- As many errors are counted as there are error keys. -/
theorem errors_toNat (h : Ended config setup log world) (sound : config.Sound)
    (fits : config.batchSize.toNat + setup.keys.length < 2 ^ 64) (nodup : setup.keys.Nodup) :
    (tallyOf world.timeline).errors.toNat =
      (tallyOf world.timeline).results.keysWithError.length := by
  have subset : (tallyOf world.timeline).results.keysWithError ⊆ setup.keys := by
    intro key mem
    obtain ⟨f, mem, key_mem, -⟩ := h.mem_keysWithError.1 mem
    exact h.mem_keys sound fits mem key_mem
  have le := ((h.nodup_keysWithError sound fits nodup).subperm subset).length_le
  rw [Worker.errors_eq, UInt64.toNat_ofNat', Nat.mod_eq_of_lt (by omega)]

end Ended

end Run

end ReplicaDiff
