/-
# ReplicaDiff.Proofs.World.Counters — counters in the stores of a world

With one more counter in a store clients fare as they do without it, in whatever
order tasks are fired, and there are no other orders (`mimics_insertCounter`,
`mimics_of_insertCounter`).

Among wrappers every counter has counted the fetches that have got to it, and of
two counters the one further inside lacks those that have stalled, or are asleep,
between the two (`Schedule.exact`).
-/
import ReplicaDiff.Proofs.Store.Stack
import ReplicaDiff.Proofs.World.Passing
import ReplicaDiff.Proofs.World.Removal

namespace ReplicaDiff.World

set_option autoImplicit false

open Store (Layer Wrapper)

variable {σ ε : Type}

/-! ## Nobody notices a counter -/

/-- Stores of both sides, with one more counter in the store of one side. -/
def withCounter (stores : Side → Store) (side : Side) (depth : Nat) : Side → Store :=
  fun side' => if side' = side then (stores side').insertCounter depth else stores side'

/-- The world in which clients are about to begin, with some stores. -/
def initialWith (stores : Side → Store) (states : List σ) : World σ ε :=
  initial (stores .source) (stores .target) states

/-- Worlds with the same clock, in which the clients stand at the same and have done the same. -/
structure Alike (w w' : World σ ε) : Prop where
  now : w'.now = w.now
  clients : w'.clients = w.clients
  timeline : w'.timeline = w.timeline

/-- Whatever clients do with the first stores, in whatever order, they do with the others: each
fetch ends at the same moment with the same answer, and so does everything else. -/
def Mimics (stores stores' : Side → Store) : Prop :=
  ∀ {σ ε : Type} (behave : Behaviour σ ε) (states : List σ) (log : List (Stage σ ε))
    (w : World σ ε), Schedule behave (initialWith stores states) log w →
    ∃ log' w', Schedule behave (initialWith stores' states) log' w' ∧ ends log' = ends log ∧
      Alike w w' ∧ ((∀ s ∈ log, s.Prompt) → ∀ s ∈ log', s.Prompt)

theorem prompt_stage (r : Recasting) (s : Stage σ ε) : (r.stage s).Prompt ↔ s.Prompt :=
  and_congr_right fun _ => List.forall_mem_map

theorem alike_recast (r : Recasting) (w : World σ ε) : Alike (r.world w) w := ⟨rfl, rfl, rfl⟩

theorem Alike.symm {w w' : World σ ε} (h : Alike w w') : Alike w' w :=
  ⟨h.now.symm, h.clients.symm, h.timeline.symm⟩

variable {stores : Side → Store} {side : Side} {depth : Nat}

/-- Without the counter the stores are those without it. -/
theorem removal_initialWith (stores : Side → Store) (side : Side) (depth : Nat) (states : List σ) :
    (removal side depth).world (initialWith (withCounter stores side depth) states : World σ ε) =
      initialWith stores states := by
  have store (side' : Side) : (removal side depth).store side' (withCounter stores side depth side') =
      stores side' := by
    simp only [removal, withCounter]
    split
    · exact Store.remove_insert _ _ _
    · rfl
  have agenda : ((initial (stores .source) (stores .target) states : World σ ε).agenda.map
      fun e => (e.1, (removal side depth).task e.2)) =
        (initial (stores .source) (stores .target) states : World σ ε).agenda := by
    simp [initial, removal]
  simp only [Recasting.world, initialWith]
  rw [show (initial (withCounter stores side depth .source) (withCounter stores side depth .target)
    states : World σ ε).agenda = (initial (stores .source) (stores .target) states : World σ ε).agenda
    from rfl, agenda]
  simp only [initial, store]

theorem store_initialWith (stores : Side → Store) (states : List σ) (side : Side) :
    (initialWith stores states : World σ ε).store side = stores side := by
  cases side <;> rfl

theorem through_initialWith (inside : depth ≤ (stores side).layers.length) (states : List σ) :
    Through side depth (initialWith (withCounter stores side depth) states : World σ ε) where
  layer := by
    rw [store_initialWith, withCounter, if_pos rfl]
    exact Store.transparentAt_insertCounter inside
  awake x mem := by
    rw [initialWith, sleepers_initial] at mem
    cases mem

/-- What clients do with a counter they do without it. -/
theorem mimics_of_insertCounter (inside : depth ≤ (stores side).layers.length) :
    Mimics (withCounter stores side depth) stores := by
  intro σ ε behave states log w schedule
  obtain ⟨onward, same, -⟩ := schedule.recast Through.upholds (through_initialWith inside states)
  rw [removal_initialWith] at onward
  refine ⟨_, _, onward, same, (alike_recast _ w).symm, fun prompt s' mem => ?_⟩
  obtain ⟨s, mem', rfl⟩ := List.mem_map.1 mem
  exact (prompt_stage _ s).2 (prompt s mem')

/-- What clients do without a counter they do with it. -/
theorem mimics_insertCounter (inside : depth ≤ (stores side).layers.length) :
    Mimics stores (withCounter stores side depth) := by
  intro σ ε behave states log' w' schedule'
  have begins : Through side depth (initialWith (withCounter stores side depth) states : World σ ε) :=
    through_initialWith inside states
  rw [← removal_initialWith stores side depth states] at schedule'
  obtain ⟨log, w, schedule, rfl, rfl⟩ := schedule'.exists_of_recast Through.upholds begins
  have same := (schedule.recast Through.upholds begins).2.1
  refine ⟨log, w, schedule, same.symm, alike_recast _ w, fun prompt s mem => ?_⟩
  exact (prompt_stage _ s).1 (prompt _ (List.mem_map_of_mem mem))

/-- What `World.run` does to the end without a counter it does with it, given no less fuel. -/
theorem run_withCounter (behave : Behaviour σ ε) (states : List σ)
    (inside : depth ≤ (stores side).layers.length) {fuel fuel' : Nat} (more : fuel ≤ fuel')
    (finished : (run behave fuel (initialWith stores states)).isOver = true) :
    Alike (run behave fuel (initialWith stores states))
      (run behave fuel' (initialWith (withCounter stores side depth) states)) := by
  have same : run behave fuel' ((removal side depth).world
      (initialWith (withCounter stores side depth) states)) = _ :=
    run_recast Through.upholds fuel' (.initial _ _ states) (through_initialWith inside states)
  rw [← run_eq_of_isOver more finished, ← removal_initialWith stores side depth states, same]
  exact alike_recast _ _

/-- A store has no more layers than with one more counter in it. -/
theorem layers_withCounter (stores : Side → Store) (side : Side) (depth : Nat) (side' : Side) :
    (stores side').layers.length ≤ (withCounter stores side depth side').layers.length := by
  unfold withCounter
  split
  · simp only [Store.insertCounter, Store.insert, List.length_reverse]
    exact Nat.le_trans (Nat.le_of_eq List.length_reverse.symm) List.length_le_length_insertIdx
  · exact Nat.le_refl _

/-! ## What a counter has counted -/

/-- What the counters of the store of one side have counted after a schedule. -/
structure Exact (side : Side) (log : List (Stage σ ε)) (w : World σ ε) : Prop where
  /-- The fetches that have all layers ahead of them are those that have been called. -/
  called : passed side (w.store side).layers.length log =
    (callsIn log).filter fun t => t.side = side
  /-- A counter has counted each fetch once that has got to it. -/
  counts : ∀ depth c, (w.store side).counterAt? depth = some c →
    (passed side (depth + 1) log).Nodup ∧
      (∀ key, c.of key = (passed side (depth + 1) log).countP fun t => t.key = key) ∧ c.Balanced
  /-- It lacks those that have stalled, or are asleep, on the way from another. -/
  lacks : ∀ inner outer c c', inner < outer → (w.store side).counterAt? inner = some c →
    (w.store side).counterAt? outer = some c' →
      (passed side (outer + 1) log).Perm (passed side (inner + 1) log ++
        stalled side (inner + 1) outer log ++ asleep side (inner + 1) outer w) ∧
      ∀ key, c.of key ≤ c'.of key

variable {behave : Behaviour σ ε} {log : List (Stage σ ε)} {w : World σ ε}

/-- A fetch that goes on at another layer gets beyond a transparent one if it gets to it. -/
theorem passes_succ_drop (key : String) {layers : List Layer} {below : Nat} {l : Layer}
    (at_depth : layers.reverse[depth]? = some l) (transparent : l.Transparent)
    (elsewhere : below ≠ depth) :
    Store.passes key (layers.drop (layers.length - below)) (depth + 1) =
      Store.passes key (layers.drop (layers.length - below)) depth := by
  have inside := (List.getElem?_eq_some_iff.1 at_depth).1
  rw [List.length_reverse] at inside
  by_cases further : below < depth
  · -- The layer lies outside of those ahead.
    have outside (left : Nat) (le : depth ≤ left) :
        Store.passes key (layers.drop (layers.length - below)) left = false := by
      simp only [Store.passes, List.length_drop, Bool.and_eq_false_iff, decide_eq_false_iff_not]
      exact .inl (by omega)
    rw [outside _ (Nat.le_succ depth), outside _ (Nat.le_refl depth)]
  · refine Store.passes_succ key ?_ transparent
    rw [List.reverse_drop, List.getElem?_take_of_lt (by omega), at_depth]

/-- A fetch that gets to a transparent layer gets beyond it. -/
theorem passing?_succ {s : Stage σ ε} (h : Through side depth s.world) :
    s.passing? side (depth + 1) = s.passing? side depth := by
  obtain ⟨l, at_depth, transparent⟩ := h.layer
  cases ahead : s.taken.ahead? s.task with
  | none => rw [passing?_of_idle side _ ahead, passing?_of_idle side _ ahead]
  | some found =>
      obtain ⟨t, layers⟩ := found
      rw [passing?_eq side _ ahead, passing?_eq side _ ahead]
      by_cases own : t.side = side
      · subst own
        have same : Store.passes t.key layers (depth + 1) = Store.passes t.key layers depth := by
          cases task : s.task with
          | enter t' =>
              rw [task] at ahead
              cases ahead
              exact Store.passes_succ t.key at_depth transparent
          | resume t' below ending =>
              cases ending with
              | pass =>
                  rw [task] at ahead
                  cases ahead
                  refine passes_succ_drop t.key at_depth transparent ?_
                  exact h.awake ⟨t, below, .pass⟩ (mem_sleepers.2 ⟨s.due, task ▸ s.mem_agenda⟩) rfl
              | _ => rw [task] at ahead; cases ahead
          | _ => rw [task] at ahead; cases ahead
        rw [same]
      · rw [if_neg fun both => own both.1, if_neg fun both => own both.1]

theorem Schedule.passed_succ {start : World σ ε} (h : Schedule behave start log w)
    (begins : Through side depth start) :
    Through side depth w ∧ passed side (depth + 1) log = passed side depth log := by
  induction h with
  | refl => exact ⟨begins, rfl⟩
  | @snoc log s earlier ih =>
      obtain ⟨current, same⟩ := ih
      exact ⟨current.next, by rw [passed_snoc, passed_snoc, same, passing?_succ current]⟩

theorem Schedule.counterAt? {start : World σ ε} (h : Schedule behave start log w) (side : Side)
    (depth : Nat) :
    (w.store side).counterAt? depth = ((start.store side).counterAt? depth).map
      (·.addAll ((passed side (depth + 1) log).map (·.key))) := by
  unfold Store.counterAt?
  rw [h.getElem?_layers side depth]
  cases (start.store side).layers.reverse[depth]? with
  | none => rfl
  | some l => cases counted : l.counted <;> simp [Option.filter_some, counted]

/-- Among wrappers counters are exact, in whatever order tasks are fired. -/
theorem Schedule.exact {states : List σ} (h : Schedule behave (initialWith stores states) log w)
    (wrappers : ∀ l ∈ (stores side).layers, Wrapper l) : Exact side log w := by
  have start : (initialWith stores states : World σ ε).store side = stores side :=
    store_initialWith stores states side
  have awake : sleepers (initialWith stores states : World σ ε).agenda = [] :=
    sleepers_initial _ _ _
  have waiting : Waiting side (initialWith stores states : World σ ε) :=
    waiting_initial states fun l mem => (wrappers l (start ▸ mem)).waits
  have length : (w.store side).layers.length = (stores side).layers.length :=
    (congrFun h.depth_eq side).trans (congrArg (·.layers.length) start)
  -- A counter began with nothing counted, lies among the layers, and was transparent.
  have began {depth : Nat} {c : CallCount} (counter : (w.store side).counterAt? depth = some c) :
      c = CallCount.none.addAll ((passed side (depth + 1) log).map (·.key)) ∧
        depth < (stores side).layers.length ∧
        Through side depth (initialWith stores states : World σ ε) := by
    rw [h.counterAt? side depth, start] at counter
    obtain ⟨c', counter', rfl⟩ := Option.map_eq_some_iff.1 counter
    obtain ⟨rfl, layer⟩ := Store.counterAt?_of_wrappers wrappers counter'
    obtain ⟨l, at_depth, -⟩ := Store.counterAt?_eq_some counter'
    have inside := (List.getElem?_eq_some_iff.1 at_depth).1
    rw [List.length_reverse] at inside
    refine ⟨rfl, inside, start ▸ layer, fun x mem => ?_⟩
    rw [awake] at mem
    cases mem
  have counted {depth : Nat} {c : CallCount} (counter : (w.store side).counterAt? depth = some c)
      (key : String) : c.of key = (passed side (depth + 1) log).countP fun t => t.key = key := by
    rw [(began counter).1, CallCount.of_addAll, List.count_eq_countP, List.countP_map]
    exact Nat.zero_add _
  constructor
  · rw [length, ← start]
    exact (h.passed_length waiting).2
  · intro depth c counter
    obtain ⟨eq, inside, -⟩ := began counter
    refine ⟨h.nodup_passed waiting (start ▸ inside), counted counter, eq ▸ ?_⟩
    exact CallCount.Balanced.addAll (c := .none) rfl _
  · intro inner outer c c' less counter counter'
    obtain ⟨-, inside, through⟩ := began counter'
    have beyond := (h.passed_succ through).2
    have perm := (h.passed_perm waiting awake less (start ▸ Nat.le_of_lt inside)).2
    rw [← beyond] at perm
    refine ⟨perm, fun key => ?_⟩
    rw [counted counter, counted counter', perm.countP_eq, List.countP_append, List.countP_append,
      Nat.add_assoc]
    exact Nat.le_add_right _ _

end ReplicaDiff.World
