/-
# ReplicaDiff.Proofs.Worker.Counting — how many keys are done before a moment

The batches that are over before a moment are those of the earlier stages
(`finishedBefore`).  They are never more as the moment is earlier, and as long as
a worker has not stopped they are not all: the last stage of all ends a batch, and
it comes no earlier (`keyCount_finishedBefore_lt`).

Put together, the batches that end at all stages are those of all workers
(`finishes_perm`), so that there are no more keys in them than in all shares.
-/
import Mathlib.Algebra.Order.BigOperators.Group.List
import ReplicaDiff.Proofs.Partition.Batches
import ReplicaDiff.Proofs.Worker.Team
import ReplicaDiff.Proofs.World.Pace

namespace ReplicaDiff.Worker

set_option autoImplicit false

open ReplicaDiff.World

/-- The batch that is over when a stage tells a worker something. -/
def finish? (s : Stage State WorkerEffect) : Option Finish :=
  s.told?.bind fun t => Finish.of? t.state t.signal

/-- The stages before a moment. -/
def stagesBefore (log : List (Stage State WorkerEffect)) (moment : Nat) :
    List (Stage State WorkerEffect) := log.filter fun s => s.moment < moment

/-- The batches that are over before a moment. -/
def finishedBefore (log : List (Stage State WorkerEffect)) (moment : Nat) : List Finish :=
  (stagesBefore log moment).filterMap finish?

/-- The number of keys of some batches. -/
def keyCount (finished : List Finish) : Nat := (finished.map (·.keys.length)).sum

/-- The number of keys of those that failed. -/
def uncheckedCount (finished : List Finish) : Nat := (finished.map (·.uncheckedKeys.length)).sum

theorem length_uncheckedKeys_le (f : Finish) : f.uncheckedKeys.length ≤ f.keys.length := by
  unfold Finish.uncheckedKeys
  split
  · exact Nat.le_refl _
  · exact Nat.zero_le _

/-- No more keys are unchecked than there are. -/
theorem uncheckedCount_le (finished : List Finish) : uncheckedCount finished ≤ keyCount finished :=
  List.sum_le_sum fun f _ => length_uncheckedKeys_le f

theorem keyCount_eq_length (finished : List Finish) :
    keyCount finished = (finished.flatMap (·.keys)).length := by
  rw [List.length_flatMap, keyCount]

theorem keyCount_le_of_sublist {some all : List Finish} (sublist : some.Sublist all) :
    keyCount some ≤ keyCount all := by
  rw [keyCount_eq_length, keyCount_eq_length]
  exact (sublist.flatMap _).length_le

variable {source target : Store} {team : List Worker} {log : List (Stage State WorkerEffect)}
  {w : World State WorkerEffect}

/-- Later more batches are over. -/
theorem finishedBefore_sublist {a b : Nat} (le : a ≤ b) :
    (finishedBefore log a).Sublist (finishedBefore log b) := by
  refine List.Sublist.filterMap _ ?_
  refine List.monotone_filter_right log fun s early => ?_
  simp only [decide_eq_true_eq] at early ⊢
  omega

/-- The batches that end at the stages are those of the workers. -/
theorem finishes_perm
    (h : Schedule State.react (initial source target (team.map State.initial)) log w) :
    (log.filterMap finish?).Perm (teamFinishes team.length log) := by
  have bound : ∀ s ∈ log, ∀ t, s.told? = some t → t.client < team.length := by
    intro s mem t told
    have := h.client_lt_of_told mem told
    rwa [List.length_map] at this
  have perm := heard_perm (fun h => (Finish.of? h.1 h.2).toList) bound
  have same : ∀ s : Stage State WorkerEffect,
      (s.told?.elim [] fun t => (Finish.of? t.state t.signal).toList) = (finish? s).toList := by
    intro s
    unfold finish?
    cases s.told? <;> rfl
  simp only [same, ← List.filterMap_eq_flatMap_toList] at perm
  exact perm

/-- The last stage of all ends a batch, unless a worker has none. -/
theorem exists_last_finish
    (h : Schedule State.react (initial source target (team.map State.initial)) log w)
    (finished : w.isOver = true) (nonempty : team ≠ []) :
    ∃ earlier s, log = earlier ++ [s] ∧ s.moment = w.now ∧ ∃ worker ∈ team,
      worker.batchKeys = [] ∨ ∃ f, finish? s = some f ∧ f.keys ∈ worker.batchKeys := by
  obtain ⟨earlier, s, i, state, start, signal, p, rfl, moment, told, begins, play, admits, move⟩ :=
    h.exists_last finished (by simpa using nonempty)
  rw [List.getElem?_map] at begins
  obtain ⟨worker, present, rfl⟩ := Option.map_eq_some_iff.1 begins
  refine ⟨earlier, s, rfl, moment, worker, List.mem_of_getElem? present, ?_⟩
  have batches := batches_of_over h finished present
  have tells : s.tells i = some (state, signal) := by simp [Stage.tells, told]
  rw [heard_snoc, tells, Option.toList_some] at batches
  cases turn state admits with
  | begins =>
      rw [finishes_begun, play.eq_nil_of_fresh] at batches
      exact .inl batches.symm
  | rests => cases move
  | @fails keys timeout error course next =>
      rcases react_of_next next error with reacts | reacts <;> rw [reacts] at move <;> cases move
  | @ends keys timeout verdict f s' effects closes reacts same keeps contributes =>
      rw [finishes_of_over closes] at batches
      refine .inr ⟨f, ?_, ?_⟩
      · simpa [finish?, told] using closes
      · rw [← batches]
        simp

/-- There are as many keys in the batches that end at the stages as in those of the workers. -/
theorem keyCount_finishes
    (h : Schedule State.react (initial source target (team.map State.initial)) log w)
    (finished : w.isOver = true) :
    keyCount (log.filterMap finish?) = (team.map (·.batchKeys.flatten.length)).sum := by
  rw [keyCount_eq_length, ((finishes_perm h).flatMap_right _).length_eq, keys_teamFinishes h finished,
    List.length_flatMap]

/-- As long as the workers have not stopped, fewer keys are done than there are in their shares. -/
theorem keyCount_finishedBefore_lt
    (h : Schedule State.react (initial source target (team.map State.initial)) log w)
    (finished : w.isOver = true) (nonempty : team ≠ [])
    (shares : ∀ worker ∈ team,
      worker.span.isEmpty = false ∧ worker.span.stop.toNat ≤ worker.keys.length)
    {moment : Nat} (le : moment ≤ w.now) :
    keyCount (finishedBefore log moment) < (team.map (·.span.length)).sum := by
  have lengths := fun worker mem => length_flatten_batchKeys worker
    (Span.forward_of_not_isEmpty (shares worker mem).1) (shares worker mem).2
  have total := keyCount_finishes h finished
  have all : (team.map (·.batchKeys.flatten.length)).sum ≤ (team.map (·.span.length)).sum :=
    List.sum_le_sum fun worker mem => (lengths worker mem).1
  obtain ⟨earlier, s, rfl, now, worker, mem, last⟩ := exists_last_finish h finished nonempty
  have before : (finishedBefore (earlier ++ [s]) moment).Sublist (earlier.filterMap finish?) := by
    have late : ¬s.moment < moment := by omega
    unfold finishedBefore stagesBefore
    rw [List.filter_append, List.filter_cons_of_neg (by simpa using late), List.filter_nil,
      List.append_nil]
    exact List.filter_sublist.filterMap _
  have done := keyCount_le_of_sublist before
  have split : keyCount ((earlier ++ [s]).filterMap finish?) =
      keyCount (earlier.filterMap finish?) + keyCount (finish? s).toList := by
    rw [keyCount_eq_length, keyCount_eq_length, keyCount_eq_length, List.filterMap_append,
      List.flatMap_append, List.length_append]
    cases closes : finish? s <;> simp [closes]
  -- Either the last batch of all has a key, or a worker has batches for only a part of its share.
  have short : worker.batchKeys.flatten.length < worker.span.length ∨
      ∃ f, finish? s = some f ∧ f.keys ≠ [] := by
    rcases last with none | ⟨f, closes, batch⟩
    · left
      have some := (Span.isEmpty_eq_false_iff _).1 (shares worker mem).1
      simpa [none] using some
    · exact (lengths worker mem).2.imp_right fun keys => ⟨f, closes, keys _ batch⟩
  rcases short with fewer | ⟨f, closes, some⟩
  · have lt : (team.map (·.batchKeys.flatten.length)).sum < (team.map (·.span.length)).sum :=
      List.sum_lt_sum _ _ (fun worker mem => (lengths worker mem).1) ⟨worker, mem, fewer⟩
    omega
  · have own : 0 < keyCount (finish? s).toList := by
      simpa [closes, keyCount, List.length_pos_iff] using some
    omega

end ReplicaDiff.Worker
