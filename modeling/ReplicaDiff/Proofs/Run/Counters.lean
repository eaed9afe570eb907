/-
# ReplicaDiff.Proofs.Run.Counters — counters in the stores of a run

What a batch, a team of workers or a run comes to depends on its stores only by
what becomes of its fetches.  So it comes to the same, at the same moments, with
one more counter in a store, and says the same (`Unseen`); what the counter has
counted is exact (`counters_unseen_and_exact`).
-/
import ReplicaDiff.Proofs.Batch.Send
import ReplicaDiff.Proofs.Run.Unfolding
import ReplicaDiff.Proofs.World.Counters

namespace ReplicaDiff

set_option autoImplicit false

open ReplicaDiff.World

variable {stores stores' : Side → Store} {side : Side} {depth : Nat}

/-! ## Batches and workers -/

theorem World.roundCost_mono {source target source' target' : Store}
    (more : source.layers.length ≤ source'.layers.length)
    (more' : target.layers.length ≤ target'.layers.length) (keys : Nat) :
    roundCost source target keys ≤ roundCost source' target' keys := by
  have each := Nat.mul_le_mul_left keys (Nat.add_le_add_right (Nat.add_le_add more more') 4)
  exact Nat.add_le_add_left each 2

theorem Worker.cost_mono {source target source' target' : Store}
    (more : source.layers.length ≤ source'.layers.length)
    (more' : target.layers.length ≤ target'.layers.length) (w : Worker) :
    w.cost source target ≤ w.cost source' target' := by
  unfold Worker.cost
  induction w.batchKeys with
  | nil => exact Nat.le_refl 1
  | cons keys rest ih =>
      have round := World.roundCost_mono more more' keys.length
      exact Nat.add_le_add (Nat.mul_le_mul_left _ round) ih

/-- A batch comes to the same with one more counter, at the same moment. -/
theorem Batch.send_withCounter (inside : depth ≤ (stores side).layers.length) (keys : List String)
    (timeout : Duration) :
    Alike (send (stores .source) (stores .target) keys timeout)
      (send (withCounter stores side depth .source) (withCounter stores side depth .target)
        keys timeout) := by
  have more := World.roundCost_mono (layers_withCounter stores side depth .source)
    (layers_withCounter stores side depth .target) keys.length
  exact run_withCounter Sender.react [⟨keys, timeout, none⟩] inside (Nat.add_le_add_left more 2)
    (isOver_send _ _ _ _)

/-- Workers come to the same with one more counter, and do the same at the same moments. -/
theorem Worker.runAll_withCounter (inside : depth ≤ (stores side).layers.length)
    (workers : List Worker) :
    Alike (runAll (stores .source) (stores .target) workers)
      (runAll (withCounter stores side depth .source) (withCounter stores side depth .target)
        workers) := by
  refine run_withCounter State.react (workers.map State.initial) inside ?_
    (isOver_runAll _ _ _)
  induction workers with
  | nil => exact Nat.le_refl 1
  | cons w rest ih =>
      exact Nat.add_le_add (w.cost_mono (layers_withCounter stores side depth .source)
        (layers_withCounter stores side depth .target)) ih

namespace Run

/-! ## Runs -/

/-- Opening a store that is handed out. -/
theorem connect_ofStores (config : Config) (source target : Store) (refused : Option Side)
    (files : Files) (side : Side) :
    connect config (.ofStores source target refused) files side =
      if refused = some side then
        (.error (.connect side (config.endpoint side).url "authentication failed"),
          [.connectionFailed side (config.endpoint side).url
            (.connect side (config.endpoint side).url "authentication failed")])
      else
        (.ok (match side with | .source => source | .target => target),
          [.connected side (config.endpoint side).bucket]) := by
  unfold connect Connector.ofStores
  dsimp only
  by_cases refuses : refused = some side
  · rw [if_pos refuses, if_pos refuses]
  · rw [if_neg refuses, if_neg refuses]
    cases side <;> rfl

/-- With stores that are handed out a run is refused whatever they are, or begins whatever they
are. -/
theorem prepare_ofStores (config : Config) (refused : Option Side) (files : Files) :
    (∃ error said, ∀ source target,
      prepare config (.ofStores source target refused) files = (.error error, said)) ∨
    ∃ keys said, ∀ source target,
      prepare config (.ofStores source target refused) files = (.ok ⟨keys, source, target⟩, said) := by
  unfold prepare
  cases KeyList.load files config.inputKeysPath with
  | error error => exact .inl ⟨error, [], fun _ _ => rfl⟩
  | ok loaded =>
      obtain ⟨keys, loading⟩ := loaded
      simp only [connect_ofStores]
      by_cases first : refused = some .source
      · simp only [if_pos first]
        exact .inl ⟨_, _, fun _ _ => rfl⟩
      · by_cases second : refused = some .target
        · simp only [if_neg first, if_pos second]
          exact .inl ⟨_, _, fun _ _ => rfl⟩
        · simp only [if_neg first, if_neg second]
          exact .inr ⟨_, _, fun _ _ => rfl⟩

variable {w w' : World Worker.State WorkerEffect}

/-- What workers have added up to follows from the timeline at their end. -/
theorem tally_of_alike (alike : Alike w w') (config : Config) (total : Nat) (team : List Worker) :
    (Verified.ofWorld config total team w').tally =
      (Verified.ofWorld config total team w).tally := by
  simp only [Verified.ofWorld, alike.timeline]

/-- What a run leaves behind but for its stores follows from the clock and the timeline at the end
of its workers. -/
theorem ended_of_alike (alike : Alike w w') (config : Config) (total : Nat) (team : List Worker)
    (said : List Event) (report : Output.Report) (tree : FileTree) :
    { Trace.ended (.ofWorld config total team w') said report tree with stores := none } =
      { Trace.ended (.ofWorld config total team w) said report tree with stores := none } := by
  simp only [Verified.ofWorld, Trace.ended, summarise, alike.timeline, alike.now]

/-- A run comes to the same, at the same moments, and says the same with one more counter. -/
theorem execute_withCounter (inside : depth ≤ (stores side).layers.length) (config : Config)
    (refused : Option Side) (tree : FileTree) :
    { execute config (.ofStores (withCounter stores side depth .source)
        (withCounter stores side depth .target) refused) tree with stores := none } =
      { execute config (.ofStores (stores .source) (stores .target) refused) tree with
        stores := none } := by
  unfold execute check
  rcases prepare_ofStores config refused tree.read with ⟨error, said, begins⟩ | ⟨keys, said, begins⟩
  · rw [begins, begins]
  · rw [begins, begins]
    dsimp only
    cases shares? config keys with
    | none => rfl
    | some _ =>
        have alike := Worker.runAll_withCounter inside (workers config keys)
        dsimp only [verify]
        rw [tally_of_alike alike]
        exact ended_of_alike alike config _ _ _ _ _

/-- Where clients mimic clients with other stores, so do runs. -/
theorem Unfolds.mimicked (mimics : Mimics stores stores') {config : Config}
    {refused : Option Side} {tree : FileTree} {log : List (Stage Worker.State WorkerEffect)}
    {trace : Trace}
    (unfolds : Unfolds config (.ofStores (stores .source) (stores .target) refused) tree log trace) :
    ∃ log' trace',
      Unfolds config (.ofStores (stores' .source) (stores' .target) refused) tree log' trace' ∧
      { trace' with stores := none } = { trace with stores := none } := by
  cases unfolds with
  | refused fails =>
      rcases prepare_ofStores config refused tree.read with ⟨error, said, begins⟩ | ⟨_, _, begins⟩
      · cases (begins _ _).symm.trans fails
        exact ⟨[], _, .refused (begins _ _), rfl⟩
      · cases (begins _ _).symm.trans fails
  | brokenOff prepared many =>
      rcases prepare_ofStores config refused tree.read with ⟨_, _, begins⟩ | ⟨keys, said, begins⟩
      · cases (begins _ _).symm.trans prepared
      · cases (begins _ _).symm.trans prepared
        exact ⟨[], _, .brokenOff (begins _ _) many, rfl⟩
  | @ended setup said log world tree' report prepared ended writes =>
      rcases prepare_ofStores config refused tree.read with ⟨_, _, begins⟩ | ⟨keys, said, begins⟩
      · cases (begins _ _).symm.trans prepared
      · cases (begins _ _).symm.trans prepared
        obtain ⟨log', world', schedule, -, alike, -⟩ := mimics _ _ _ _ ended.schedule
        have finished : world'.isOver = true := by
          rw [isOver, alike.clients]
          exact ended.finished
        refine ⟨log', _, .ended (begins _ _) ⟨ended.room, schedule, finished⟩ ?_,
          ended_of_alike alike config _ _ said report tree'⟩
        rw [concluded, tally_of_alike alike]
        exact writes

/-! ## Unseen, and exact -/

/-- Nobody notices whether the first stores are there or the others. -/
structure Unseen (stores stores' : Side → Store) : Prop where
  /-- In whatever order tasks are fired, clients do the same and each fetch ends the same. -/
  mimics : Mimics stores stores'
  mimicked : Mimics stores' stores
  batches : ∀ keys timeout,
    Alike (Batch.send (stores .source) (stores .target) keys timeout)
      (Batch.send (stores' .source) (stores' .target) keys timeout)
  workers : ∀ team, Alike (Worker.runAll (stores .source) (stores .target) team)
    (Worker.runAll (stores' .source) (stores' .target) team)
  /-- A run comes to the same outcome at the same moment, says the same and leaves the same
  files. -/
  runs : ∀ config refused tree,
    { execute config (.ofStores (stores' .source) (stores' .target) refused) tree with
      stores := none } =
    { execute config (.ofStores (stores .source) (stores .target) refused) tree with
      stores := none }
  unfolds : ∀ config refused tree log trace,
    Unfolds config (.ofStores (stores .source) (stores .target) refused) tree log trace →
    ∃ log' trace',
      Unfolds config (.ofStores (stores' .source) (stores' .target) refused) tree log' trace' ∧
      { trace' with stores := none } = { trace with stores := none }
  unfolded : ∀ config refused tree log' trace',
    Unfolds config (.ofStores (stores' .source) (stores' .target) refused) tree log' trace' →
    ∃ log trace,
      Unfolds config (.ofStores (stores .source) (stores .target) refused) tree log trace ∧
      { trace with stores := none } = { trace' with stores := none }

theorem unseen_withCounter (inside : depth ≤ (stores side).layers.length) :
    Unseen stores (withCounter stores side depth) where
  mimics := mimics_insertCounter inside
  mimicked := mimics_of_insertCounter inside
  batches := Batch.send_withCounter inside
  workers := Worker.runAll_withCounter inside
  runs := execute_withCounter inside
  unfolds _ _ _ _ _ unfolds := unfolds.mimicked (mimics_insertCounter inside)
  unfolded _ _ _ _ _ unfolds := unfolds.mimicked (mimics_of_insertCounter inside)

/-- Nobody notices a counter anywhere in a store.  In a stack of wrappers, in whatever order tasks
are fired, every counter has counted the fetches that have got to it, each once; of two counters
the one further inside lacks just those that have stalled, or are asleep, between them. -/
theorem counters_unseen_and_exact (stores : Side → Store) (side : Side) (depth : Nat)
    (inside : depth ≤ (stores side).layers.length) :
    Unseen stores (withCounter stores side depth) ∧
    ((stores side).Stack → ∀ {σ ε : Type} (behave : Behaviour σ ε) (states : List σ)
      (log : List (Stage σ ε)) (w : World σ ε),
      Schedule behave (initialWith (withCounter stores side depth) states) log w →
      (∃ c, (w.store side).counterAt? depth = some c) ∧ Exact side log w) := by
  refine ⟨unseen_withCounter inside, fun stack _ _ behave states log w schedule => ?_⟩
  have own : withCounter stores side depth side = (stores side).insertCounter depth := if_pos rfl
  constructor
  · rw [schedule.counterAt? side depth, store_initialWith, own,
      Store.counterAt?_insertCounter inside]
    exact ⟨_, rfl⟩
  · refine schedule.exact ?_
    rw [own]
    exact Store.wrappers_insertCounter stack.wrappers inside

/-- A counter over a wrapper that lets `a` wait, over one that stalls the first call. -/
def slowOverFlaky : Side → Store
  | .source => ((Bucket.empty.store.wrap (.flaky 1)).wrap (.slow ["a"] 5)).wrap .counting
  | .target => .failing "down"

/-- A fetch that is asleep at the deadline has got to the outer counter, and not to the inner. -/
theorem counters_unseen_and_exact_asleep :
    (slowOverFlaky .source).Stack ∧ 0 ≤ (slowOverFlaky .source).layers.length ∧
    (Batch.send (withCounter slowOverFlaky .source 0 .source)
      (withCounter slowOverFlaky .source 0 .target) ["a", "b"] (.ofMillis 3)).now = 3 ∧
    ∃ log, Schedule Batch.Sender.react
        (initialWith (withCounter slowOverFlaky .source 0) [⟨["a", "b"], .ofMillis 3, none⟩]) log
        (Batch.send (withCounter slowOverFlaky .source 0 .source)
          (withCounter slowOverFlaky .source 0 .target) ["a", "b"] (.ofMillis 3)) ∧
      ((passed .source 4 log).countP fun t => t.key = "a") = 1 ∧
      ((passed .source 1 log).countP fun t => t.key = "a") = 0 := by
  have stack : (slowOverFlaky .source).Stack :=
    .wrap (.wrap (.wrap (.memory .empty) (.flaky 1)) (.slow ["a"] 5)) .counting
  obtain ⟨unseen, exact⟩ := counters_unseen_and_exact slowOverFlaky .source 0 (Nat.zero_le _)
  obtain ⟨log, schedule, -⟩ := exists_prompt_schedule Batch.Sender.react
    (2 + World.roundCost (withCounter slowOverFlaky .source 0 .source)
      (withCounter slowOverFlaky .source 0 .target) 2)
    (initialWith (withCounter slowOverFlaky .source 0) [⟨["a", "b"], .ofMillis 3, none⟩])
    (.initial _ _ _)
  have counts := (exact stack _ _ log _ schedule).2.counts
  refine ⟨stack, Nat.zero_le _, (unseen.batches ["a", "b"] (.ofMillis 3)).now.trans rfl, log,
    schedule, ?_, ?_⟩
  · exact ((counts 3 _ rfl).2.1 "a").symm
  · exact ((counts 0 _ rfl).2.1 "a").symm

end Run

end ReplicaDiff
