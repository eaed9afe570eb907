/-
# ReplicaDiff.Proofs.Worker.Sending — how often a worker sends its batches

Whatever a worker is told, the rounds that it has sent are those of its batches
in order: each batch that is over at least once and no more often than its policy
allows, and then the one under way (`counted_of_play`).
-/
import ReplicaDiff.Proofs.Worker.Ending
import ReplicaDiff.Proofs.World.Rounds

namespace ReplicaDiff.Worker

set_option autoImplicit false

open ReplicaDiff.World

/-- How often the batch under way has been sent. -/
def tries (s : State) : Phase → Nat
  | .fetching _ _ => s.course.attempt.toNat
  | .resting => s.course.attempt.toNat - 1
  | _ => 0

/-- What a worker has sent for some batches that are over. -/
def sentFor (finished : List Finish) : List (List String) :=
  finished.flatMap fun f => List.replicate f.attempts.toNat f.keys

/-- How often a worker has sent its batches after what it has been told. -/
structure Counted (w : Worker) (history : List (State × Signal)) (s : State) (p : Phase) : Prop where
  sent : sent State.react history =
    sentFor (finishes history) ++ List.replicate (tries s p) s.current
  ended : ∀ f ∈ finishes history,
    1 ≤ f.attempts.toNat ∧ f.attempts.toNat ≤ w.settings.retry.totalAttempts.toNat
  ongoing : underway s p = [s.current] →
    1 ≤ s.course.attempt.toNat ∧ s.course.attempt.toNat ≤ w.settings.retry.totalAttempts.toNat

theorem sentFor_snoc (finished : List Finish) (f : Finish) :
    sentFor (finished ++ [f]) = sentFor finished ++ List.replicate f.attempts.toNat f.keys := by
  simp [sentFor]

theorem replicate_snoc {n : Nat} (one_le : 1 ≤ n) (keys : List String) :
    List.replicate (n - 1) keys ++ [keys] = List.replicate n keys := by
  rw [← List.replicate_succ', Nat.sub_add_cancel one_le]

/-- The last attempt that is allowed has been made when there is no next one. -/
theorem total_le_of_next? {policy : Retry.Policy} {course : Retry.Course}
    (none : course.next? policy = none) : policy.totalAttempts.toNat ≤ course.attempt.toNat := by
  unfold Retry.Course.next? at none
  split at none
  · rename_i le
    exact UInt32.le_iff_toNat_le.1 le
  · cases none

/-- When a worker goes on, it has sent its batches that are over, and its next one once. -/
theorem counted_of_proceed {w : Worker} {history : List (State × Signal)} {s s' : State}
    {signal : Signal} {effects : List WorkerEffect} (proceeds : s.react signal = s'.proceed effects)
    (sent : World.sent State.react history = sentFor (finishes (history ++ [(s, signal)])))
    (ended : ∀ f ∈ finishes (history ++ [(s, signal)]),
      1 ≤ f.attempts.toNat ∧ f.attempts.toNat ≤ w.settings.retry.totalAttempts.toNat) :
    Counted w (history ++ [(s, signal)]) (s.react signal).state (.ofMove (s.react signal).move) := by
  have snoc : World.sent State.react (history ++ [(s, signal)]) = _ := sent_snoc history s signal
  have went : Onward s' effects (s.react signal) := proceeds ▸ onward s' effects
  rw [sent] at snoc
  generalize s.react signal = reaction at went snoc
  cases went with
  | sends waiting =>
      exact ⟨snoc, ended, fun _ => ⟨Nat.le_refl 1, w.settings.retry.totalAttempts_pos⟩⟩
  | finishes waiting bounds =>
      refine ⟨?_, ended, fun busy => by simp [underway, Phase.ofMove] at busy⟩
      rw [snoc]
      simp [tries, Phase.ofMove]
  | breaksOff waiting bounds =>
      refine ⟨?_, ended, fun busy => by simp [underway, Phase.ofMove] at busy⟩
      rw [snoc]
      simp [tries, Phase.ofMove]

/-- Whatever a worker is told, it sends its batches in order, each as often as it may. -/
theorem counted_of_play {w : Worker} {history : List (State × Signal)} {s : State} {p : Phase}
    (play : Play State.react (State.initial w) history s p) : Counted w history s p := by
  induction play with
  | fresh => exact ⟨rfl, by simp [finishes], fun busy => by simp [underway] at busy⟩
  | @told history s p signal earlier admits ih =>
      have worker := (standing_of_play earlier).worker
      have snoc : World.sent State.react (history ++ [(s, signal)]) = _ := sent_snoc history s signal
      cases turn s admits with
      | begins =>
          have same := finishes_begun history s
          refine counted_of_proceed rfl ?_ (same ▸ ih.ended)
          rw [same, ih.sent]
          simp [tries]
      | rests =>
          have same := finishes_rested history s
          have ongoing := ih.ongoing rfl
          refine ⟨?_, same ▸ ih.ended, fun _ => ongoing⟩
          rw [snoc, ih.sent, same, List.append_assoc]
          exact congrArg _ (replicate_snoc ongoing.1 s.current)
      | @ends keys timeout verdict f s' effects finished reacts same keeps contributes =>
          obtain ⟨batch, attempts, -⟩ := Finish.of?_eq_some finished
          have snoc' := finishes_of_over finished history
          refine counted_of_proceed reacts ?_ ?_
          · rw [snoc', sentFor_snoc, ih.sent, batch, attempts]
            rfl
          · rw [snoc']
            intro f' mem
            rcases List.mem_append.1 mem with mem | mem
            · exact ih.ended f' mem
            · rw [List.mem_singleton.1 mem, attempts]
              exact ih.ongoing rfl
      | @fails keys timeout error course next =>
          have same := finishes_of_next next error history
          obtain ⟨number, left⟩ := Retry.Course.next?_attempt next
          rw [worker] at left
          have following : 1 ≤ course.attempt.toNat ∧
              course.attempt.toNat ≤ w.settings.retry.totalAttempts.toNat := by omega
          rcases react_of_next next error with reacts | reacts <;> rw [reacts] at snoc ⊢
          · refine ⟨?_, same ▸ ih.ended, fun _ => following⟩
            rw [snoc, ih.sent, same, List.append_assoc]
            simp only [State.send, Phase.ofMove, tries, number]
            rw [List.replicate_succ']
          · refine ⟨?_, same ▸ ih.ended, fun _ => following⟩
            rw [snoc, ih.sent, same, List.append_nil]
            simp only [Phase.ofMove, tries, number, Nat.add_sub_cancel]

/-- A worker that has stopped has sent each of its batches, in order, at least once and no more often
than its policy allows. -/
theorem counts_of_play {w : Worker} {history : List (State × Signal)} {s : State}
    (play : Play State.react (State.initial w) history s .stopped) :
    ∃ counts : List Nat, counts.length = w.batchKeys.length ∧
      (∀ n ∈ counts, 1 ≤ n ∧ n ≤ w.settings.retry.totalAttempts.toNat) ∧
      sent State.react history = (List.zipWith List.replicate counts w.batchKeys).flatten := by
  have counted := counted_of_play play
  have standing := standing_of_play play
  have batches : (finishes history).map (·.keys) = w.batchKeys := by
    simpa [underway, standing.waiting rfl] using standing.batches
  refine ⟨(finishes history).map (·.attempts.toNat), ?_, fun n mem => ?_, ?_⟩
  · rw [← batches, List.length_map, List.length_map]
  · obtain ⟨f, ended, rfl⟩ := List.mem_map.1 mem
    exact counted.ended f ended
  · rw [counted.sent, ← batches, List.zipWith_map, List.zipWith_self]
    simp [sentFor, tries, List.flatMap_def]

end ReplicaDiff.Worker
