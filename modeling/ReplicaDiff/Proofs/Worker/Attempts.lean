/-
# ReplicaDiff.Proofs.Worker.Attempts — how often a worker attempts a batch

`Yield` says what each attempt at a batch brings, and `Honest` that a worker is
told so.  Then a batch is over with the first attempt that brings results, or
with the last one that is allowed (`Finish.First`), and the rounds that the worker
has sent are its batches in order, each as often as it has been attempted
(`trying_of_play`).  The numbers of attempts are those of `counted_of_play`; what
the attempts bring decides where they end (`decided_of_play`).
-/
import ReplicaDiff.Proofs.Worker.Sending

namespace ReplicaDiff.Worker

set_option autoImplicit false

open ReplicaDiff.Batch ReplicaDiff.World

/-- What each attempt at a batch brings, by its keys and the number of the attempt. -/
abbrev Yield := List String → Nat → Option Results

/-- A worker has been told of each attempt what it brings. -/
def Honest (yields : Yield) (history : List (State × Signal)) : Prop :=
  ∀ s verdict, (s, Signal.settled verdict) ∈ history →
    verdict.toOption = yields s.current s.course.attempt.toNat

/-- A batch was over with the first attempt that brought results, or with the last of `total`. -/
structure Finish.First (yields : Yield) (total : Nat) (f : Finish) : Prop where
  one_le : 1 ≤ f.attempts.toNat
  le_total : f.attempts.toNat ≤ total
  earlier : ∀ a, 1 ≤ a → a < f.attempts.toNat → yields f.keys a = none
  last : f.results? = yields f.keys f.attempts.toNat
  failed : f.results? = none → f.attempts.toNat = total

/-- The batch under way may be attempted, and none of the attempts before brought results. -/
structure Ongoing (yields : Yield) (total : Nat) (s : State) : Prop where
  one_le : 1 ≤ s.course.attempt.toNat
  le_total : s.course.attempt.toNat ≤ total
  earlier : ∀ a, 1 ≤ a → a < s.course.attempt.toNat → yields s.current a = none

/-- How often a worker has attempted its batches after what it has been told. -/
structure Trying (yields : Yield) (w : Worker) (history : List (State × Signal)) (s : State)
    (p : Phase) : Prop where
  worker : s.worker = w
  sent : sent State.react history =
    sentFor (finishes history) ++ List.replicate (tries s p) s.current
  first : ∀ f ∈ finishes history, f.First yields w.settings.retry.totalAttempts.toNat
  ongoing : underway s p = [s.current] → Ongoing yields w.settings.retry.totalAttempts.toNat s

/-- A batch was over with an attempt that brought results, or not before `total` attempts, and none of
those before brought any. -/
structure Finish.Decided (yields : Yield) (total : Nat) (f : Finish) : Prop where
  earlier : ∀ a, 1 ≤ a → a < f.attempts.toNat → yields f.keys a = none
  last : f.results? = yields f.keys f.attempts.toNat
  failed : f.results? = none → total ≤ f.attempts.toNat

/-- What a worker has been told has decided its batches. -/
structure Decided (yields : Yield) (w : Worker) (history : List (State × Signal)) (s : State)
    (p : Phase) : Prop where
  ended : ∀ f ∈ finishes history, f.Decided yields w.settings.retry.totalAttempts.toNat
  ongoing : underway s p = [s.current] →
    ∀ a, 1 ≤ a → a < s.course.attempt.toNat → yields s.current a = none

/-- The attempt with which a batch is over decides it. -/
theorem Finish.Decided.of_finished {yields : Yield} {s : State} {f : Finish}
    {verdict : Except Batch.Error Results} (finished : Finish.of? s (.settled verdict) = some f)
    (earlier : ∀ a, 1 ≤ a → a < s.course.attempt.toNat → yields s.current a = none)
    (brought : verdict.toOption = yields s.current s.course.attempt.toNat) :
    f.Decided yields s.worker.settings.retry.totalAttempts.toNat := by
  obtain ⟨batch, attempts, ⟨results, eq, kept⟩ | ⟨error, eq, failed, last⟩⟩ :=
    Finish.of?_eq_some finished
  · cases eq
    rw [← batch, ← attempts] at earlier brought
    exact ⟨earlier, kept.trans brought, fun failed => by rw [failed] at kept; cases kept⟩
  · cases eq
    have final := total_le_of_next? last
    rw [← batch, ← attempts] at earlier brought
    rw [← attempts] at final
    exact ⟨earlier, failed.trans brought, fun _ => final⟩

/-- A worker that goes on has not attempted its next batch before. -/
theorem decided_of_proceed {yields : Yield} {w : Worker} {history : List (State × Signal)}
    {s : State} {effects : List WorkerEffect} {reaction : Reaction State WorkerEffect}
    (proceeds : reaction = s.proceed effects)
    (ended : ∀ f ∈ finishes history, f.Decided yields w.settings.retry.totalAttempts.toNat) :
    Decided yields w history reaction.state (.ofMove reaction.move) := by
  have went : Onward s effects reaction := proceeds ▸ onward s effects
  refine ⟨ended, fun busy a pos lt => ?_⟩
  have one : reaction.state.course.attempt.toNat = 1 := by
    cases went with
    | sends waiting => rfl
    | finishes => simp [underway, Phase.ofMove] at busy
    | breaksOff => simp [underway, Phase.ofMove] at busy
  omega

/-- A worker that is told what its attempts bring is decided by that. -/
theorem decided_of_play {yields : Yield} {w : Worker} {history : List (State × Signal)} {s : State}
    {p : Phase} (play : Play State.react (State.initial w) history s p)
    (honest : Honest yields history) : Decided yields w history s p := by
  induction play with
  | fresh => exact ⟨by simp [finishes], fun busy => by simp [underway] at busy⟩
  | @told history s p signal earlier admits ih =>
      have ih := ih fun s v mem => honest s v (List.mem_append_left _ mem)
      have worker := (standing_of_play earlier).worker
      cases turn s admits with
      | begins =>
          exact decided_of_proceed (s := s) rfl (finishes_begun history s ▸ ih.ended)
      | rests =>
          exact ⟨finishes_rested history s ▸ ih.ended, fun _ => ih.ongoing rfl⟩
      | @ends keys timeout verdict f s' effects finished reacts same keeps contributes =>
          refine decided_of_proceed reacts ?_
          rw [finishes_of_over finished]
          intro f' mem
          rcases List.mem_append.1 mem with mem | mem
          · exact ih.ended f' mem
          · rw [List.mem_singleton.1 mem, ← worker]
            exact .of_finished finished (ih.ongoing rfl) (honest s verdict (by simp))
      | @fails keys timeout error course next =>
          have same := finishes_of_next next error history
          -- The attempt that has failed joins those that brought nothing.
          have silent : ∀ a, 1 ≤ a → a < course.attempt.toNat → yields s.current a = none := by
            intro a pos lt
            rw [(Retry.Course.next?_attempt next).1] at lt
            by_cases last : a = s.course.attempt.toNat
            · rw [last, ← honest s (.error error) (by simp)]
              rfl
            · exact ih.ongoing rfl a pos (by omega)
          rcases react_of_next next error with reacts | reacts <;> rw [reacts]
          · exact ⟨same ▸ ih.ended, fun _ => silent⟩
          · exact ⟨same ▸ ih.ended, fun _ => silent⟩

/-- Every play in which a worker is told what its attempts bring leads there. -/
theorem trying_of_play {yields : Yield} {w : Worker} {history : List (State × Signal)} {s : State}
    {p : Phase} (play : Play State.react (State.initial w) history s p)
    (honest : Honest yields history) : Trying yields w history s p := by
  have counted := counted_of_play play
  have decided := decided_of_play play honest
  refine ⟨(standing_of_play play).worker, counted.sent, fun f mem => ?_, fun busy => ?_⟩
  · obtain ⟨one_le, le_total⟩ := counted.ended f mem
    have own := decided.ended f mem
    exact ⟨one_le, le_total, own.earlier, own.last,
      fun none => Nat.le_antisymm le_total (own.failed none)⟩
  · obtain ⟨one_le, le_total⟩ := counted.ongoing busy
    exact ⟨one_le, le_total, decided.ongoing busy⟩

end ReplicaDiff.Worker
