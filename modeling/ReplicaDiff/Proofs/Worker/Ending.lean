/-
# ReplicaDiff.Proofs.Worker.Ending — workers come to an end

A worker can afford its moves: each attempt at a batch costs at most one pause
and one round, and there are no more attempts than its policy allows
(`affordable`).  The fuel of `runAll` covers all of them, so that every worker
has stopped when it is over (`isOver_runAll`).
-/
import ReplicaDiff.Proofs.Retry
import ReplicaDiff.Proofs.Worker.History
import ReplicaDiff.Proofs.World.Ending

namespace ReplicaDiff

set_option autoImplicit false

namespace Worker

open ReplicaDiff.World

/-- What one attempt at a batch costs at most: a round, and the pause before it. -/
def attemptCost (depth : Depth) (keys : List String) : Nat :=
  2 + keys.length * (depth .source + depth .target + 4)

/-- What the batches to come cost at most. -/
def waitingCost (depth : Depth) (w : Worker) (waiting : List (List String)) : Nat :=
  (waiting.map fun keys => w.settings.retry.totalAttempts.toNat * attemptCost depth keys).sum

/-- What the attempts that are left at the batch under way cost at most. -/
def remainingCost (depth : Depth) (s : State) : Nat :=
  (s.worker.settings.retry.totalAttempts.toNat - s.course.attempt.toNat) *
    attemptCost depth s.current

/-- What a worker can afford in a phase. -/
def budget (depth : Depth) (s : State) : Phase → Nat
  | .fresh => waitingCost depth s.worker s.waiting
  | .fetching _ _ => remainingCost depth s + waitingCost depth s.worker s.waiting
  | .resting =>
      1 + s.current.length * (depth .source + depth .target + 4) + remainingCost depth s
        + waitingCost depth s.worker s.waiting
  | .stopped => 0

theorem mul_eq_add_pred_mul {n : Nat} (pos : 0 < n) (k : Nat) : n * k = k + (n - 1) * k := by
  obtain ⟨m, rfl⟩ := Nat.exists_eq_succ_of_ne_zero (Nat.ne_of_gt pos)
  rw [Nat.succ_mul, Nat.succ_sub_one, Nat.add_comm]

/-- Going on to the next batch costs no more than the batches to come. -/
theorem Onward.cost_le {s : State} {effects : List WorkerEffect}
    {reaction : Reaction State WorkerEffect} (went : Onward s effects reaction) (depth : Depth) :
    World.cost depth reaction.move + budget depth reaction.state (.ofMove reaction.move) ≤
      waitingCost depth s.worker s.waiting := by
  cases went with
  | finishes => exact Nat.zero_le _
  | breaksOff => exact Nat.zero_le _
  | @sends keys rest waiting =>
      rw [waiting]
      have allowed := s.worker.settings.retry.totalAttempts_pos
      simp only [State.send, World.cost, Phase.ofMove, budget, remainingCost, waitingCost,
        Retry.Course.first, List.map_cons, List.sum_cons]
      generalize s.worker.settings.retry.totalAttempts.toNat = total at allowed
      have one : (1 : UInt32).toNat = 1 := rfl
      have attempts := mul_eq_add_pred_mul allowed (attemptCost depth keys)
      have round : attemptCost depth keys =
          2 + keys.length * (depth .source + depth .target + 4) := rfl
      rw [one]
      omega

/-- Whatever it is told, a worker can afford what it does next. -/
theorem affordable (depth : Depth) : Affordable State.react depth (budget depth) := by
  intro s p signal admits
  cases turn s admits with
  | begins => exact (onward s _).cost_le depth
  | rests =>
      simp only [State.react, State.send, World.cost, Phase.ofMove, budget]
      omega
  | @ends keys timeout verdict f s' effects finished reacts same keeps contributes =>
      have le := (onward s' effects).cost_le depth
      rw [same.1, same.2] at le
      rw [reacts]
      exact Nat.le_trans le (Nat.le_add_left _ _)
  | @fails keys timeout error course next =>
      obtain ⟨number, left⟩ := Retry.Course.next?_attempt next
      have remaining : remainingCost depth s =
          attemptCost depth s.current + remainingCost depth { s with course } := by
        unfold remainingCost
        dsimp only
        rw [number, ← Nat.sub_sub]
        exact mul_eq_add_pred_mul (Nat.sub_pos_of_lt left) _
      have round : attemptCost depth s.current =
          2 + s.current.length * (depth .source + depth .target + 4) := rfl
      rcases react_of_next next error with reacts | reacts <;> rw [reacts]
      · simp only [State.send, World.cost, Phase.ofMove, budget]
        omega
      · simp only [World.cost, Phase.ofMove, budget]
        omega

/-- A sum over the positions of a list is one over the list. -/
theorem sum_range_getElem? {α : Type} (l : List α) (f : α → Nat) :
    ∑ i ∈ Finset.range l.length, (l[i]?).elim 0 f = (l.map f).sum := by
  induction l with
  | nil => simp
  | cons a l ih =>
      rw [List.length_cons, Finset.sum_range_succ', List.map_cons, List.sum_cons, ← ih]
      simp [Nat.add_comm]

/-- The fuel of `runAll` is what its workers can afford. -/
theorem allowance_le_fuel (source target : Store) (workers : List Worker) :
    allowance (budget (initial source target (workers.map State.initial) :
        World State WorkerEffect).depth) (workers.map State.initial) ≤
      workers.foldr (fun w n => w.cost source target + n) 1 := by
  have worker : ∀ w : Worker, w.cost source target =
      1 + budget (initial source target (workers.map State.initial) :
        World State WorkerEffect).depth (State.initial w) .fresh := by
    intro w
    unfold Worker.cost budget waitingCost
    show _ = 1 + (w.batchKeys.map _).sum
    induction w.batchKeys with
    | nil => rfl
    | cons keys rest ih =>
        rw [List.foldr_cons, ih, List.map_cons, List.sum_cons]
        show w.settings.retry.totalAttempts.toNat * World.roundCost source target keys.length + _ =
          1 + (w.settings.retry.totalAttempts.toNat * attemptCost _ keys + _)
        have same : attemptCost (initial source target (workers.map State.initial) :
            World State WorkerEffect).depth keys = World.roundCost source target keys.length := rfl
        rw [same]
        omega
  unfold allowance
  rw [sum_range_getElem?, List.map_map, List.length_map]
  generalize budget (initial source target (workers.map State.initial) :
    World State WorkerEffect).depth = b at worker
  induction workers with
  | nil => simp
  | cons w ws ih =>
      simp only [List.map_cons, List.sum_cons, List.length_cons, List.foldr_cons,
        Function.comp_apply]
      have own := worker w
      omega

/-- When `runAll` is over, every worker has stopped. -/
theorem isOver_runAll (source target : Store) (workers : List Worker) :
    (runAll source target workers).isOver = true :=
  isOver_run (affordable _) (allowance_le_fuel source target workers)

end Worker

end ReplicaDiff
