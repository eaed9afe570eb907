/-
# ReplicaDiff.Proofs.Worker.Pace — how long a worker takes at most

An attempt at a batch is over at its deadline, and one that has failed is followed
by a pause, unless it is the last one.  So there is a limit to the time of a batch
(`WorkerSettings.batchTicks`), and a worker has some time left in each phase that
covers whatever it does next (`sustainable`).  Durations in whole milliseconds
take no more than their lengths, so that the time of a worker is bounded by the
lengths of its deadlines and pauses (`toldAt_le_nanos`).
-/
import Mathlib.Tactic.Ring
import ReplicaDiff.Proofs.Worker.Sending
import ReplicaDiff.Proofs.World.Pace

namespace ReplicaDiff

set_option autoImplicit false

open ReplicaDiff.World

namespace WorkerSettings

/-- The deadline and the pauses of a worker are whole milliseconds. -/
structure Whole (settings : WorkerSettings) : Prop where
  timeout : settings.batchTimeout.Whole
  retry : settings.retry.Whole

/-- The nanoseconds of all attempts at a batch with the pauses between them. -/
def batchNanos (settings : WorkerSettings) : Nat :=
  settings.retry.totalAttempts.toNat * settings.batchTimeout.toNanos +
    ((settings.retry.delays.take (settings.retry.totalAttempts.toNat - 1)).map (·.toNanos)).sum

/-- The milliseconds that `n` repetitions of an attempt take at most, with the pauses before them, of
which the first is `delay`. -/
def retryTicks (settings : WorkerSettings) (delay : Duration) (n : Nat) : Nat :=
  n * settings.batchTimeout.ticks + settings.retry.pauseTicks delay n

/-- The milliseconds that a batch takes at most. -/
def batchTicks (settings : WorkerSettings) : Nat :=
  settings.batchTimeout.ticks +
    settings.retryTicks settings.retry.firstDelay (settings.retry.totalAttempts.toNat - 1)

theorem retryTicks_succ (settings : WorkerSettings) (delay : Duration) (n : Nat) :
    settings.retryTicks delay (n + 1) = delay.ticks + settings.batchTimeout.ticks +
      settings.retryTicks (settings.retry.nextDelay delay) n := by
  unfold retryTicks
  rw [Retry.Policy.pauseTicks_succ, Nat.succ_mul]
  omega

/-- With durations in whole milliseconds a batch takes no longer than its deadlines and pauses. -/
theorem Whole.batchTicks_le {settings : WorkerSettings} (whole : settings.Whole) :
    settings.batchTicks * 1000000 ≤ settings.batchNanos := by
  have deadline := whole.timeout.ticks_le
  have pauses := whole.retry.pauses_le whole.retry.firstDelay
    (settings.retry.totalAttempts.toNat - 1)
  obtain ⟨n, attempts⟩ := Nat.exists_eq_add_of_lt settings.retry.totalAttempts_pos
  unfold batchTicks retryTicks batchNanos
  rw [settings.retry.take_delays]
  rw [attempts, Nat.zero_add, Nat.add_sub_cancel] at pauses ⊢
  calc (settings.batchTimeout.ticks + (n * settings.batchTimeout.ticks +
        settings.retry.pauseTicks settings.retry.firstDelay n)) * 1000000
      = (n + 1) * (settings.batchTimeout.ticks * 1000000) +
        settings.retry.pauseTicks settings.retry.firstDelay n * 1000000 := by ring
    _ ≤ _ := Nat.add_le_add (Nat.mul_le_mul_left _ deadline) pauses

end WorkerSettings

namespace Worker

/-- The milliseconds that the attempts at the batch under way take at most after the one that is made
now or next. -/
def repeatTicks (s : State) : Nat :=
  s.worker.settings.retryTicks s.course.delay
    (s.worker.settings.retry.totalAttempts.toNat - s.course.attempt.toNat)

/-- The milliseconds that a worker has left in a phase after it is told what it waits for. -/
def timeLeft (s : State) : Phase → Nat
  | .fresh => s.waiting.length * s.worker.settings.batchTicks
  | .fetching _ _ => repeatTicks s + s.waiting.length * s.worker.settings.batchTicks
  | .resting =>
      s.worker.settings.batchTimeout.ticks + repeatTicks s
        + s.waiting.length * s.worker.settings.batchTicks
  | .stopped => 0

/-- Going on to the next batch takes no more time than the batches to come. -/
theorem Onward.time_le {s : State} {effects : List WorkerEffect}
    {reaction : Reaction State WorkerEffect} (went : Onward s effects reaction) :
    wait reaction.move + timeLeft reaction.state (.ofMove reaction.move) ≤
      s.waiting.length * s.worker.settings.batchTicks := by
  cases went with
  | finishes => exact Nat.zero_le _
  | breaksOff => exact Nat.zero_le _
  | @sends keys rest waiting =>
      rw [waiting]
      have one : (1 : UInt32).toNat = 1 := rfl
      simp only [State.send, wait, Phase.ofMove, timeLeft, repeatTicks, Retry.Course.first, one,
        List.length_cons, Nat.succ_mul, WorkerSettings.batchTicks]
      omega

/-- Repeating a failed attempt takes the pause, the deadline and what the repetitions after it
take. -/
theorem repeatTicks_of_next {s : State} {course : Retry.Course}
    (next : s.course.next? s.worker.settings.retry = some course) :
    repeatTicks s = s.course.delay.ticks + s.worker.settings.batchTimeout.ticks +
      repeatTicks { s with course } := by
  obtain ⟨number, left⟩ := Retry.Course.next?_attempt next
  have attempts : s.worker.settings.retry.totalAttempts.toNat - s.course.attempt.toNat =
      s.worker.settings.retry.totalAttempts.toNat - course.attempt.toNat + 1 := by omega
  unfold repeatTicks
  rw [attempts, WorkerSettings.retryTicks_succ, ← Retry.Course.next?_delay next]

/-- Whatever it is told, a worker has time for what it does next. -/
theorem sustainable : Sustainable State.react timeLeft := by
  intro s p signal admits
  cases turn s admits with
  | begins => exact (onward s _).time_le
  | rests =>
      simp only [State.react, State.send, wait, Phase.ofMove, timeLeft, repeatTicks]
      omega
  | @ends keys timeout verdict f s' effects finished reacts same keeps contributes =>
      have le := (onward s' effects).time_le
      rw [same.1, same.2] at le
      rw [reacts]
      exact Nat.le_trans le (Nat.le_add_left _ _)
  | @fails keys timeout error course next =>
      have left := repeatTicks_of_next next
      rcases react_of_next next error with reacts | reacts <;> rw [reacts]
      · simp only [State.send, wait, Phase.ofMove, timeLeft]
        omega
      · simp only [wait, Phase.ofMove, timeLeft]
        omega

variable {source target : Store} {team : List Worker} {log : List (Stage State WorkerEffect)}
  {w : World State WorkerEffect}

/-- A worker is told the last thing within the time of its batches, whatever the stores do. -/
theorem toldAt_le
    (h : Schedule State.react (initial source target (team.map State.initial)) log w)
    (prompt : ∀ s ∈ log, s.Prompt) {i : Nat} {worker : Worker} (present : team[i]? = some worker) :
    toldAt i log ≤ worker.batchKeys.length * worker.settings.batchTicks := by
  obtain ⟨c, p, -, -, -, paced⟩ := h.paced sustainable prompt (begins_of_present present)
  exact paced.told

/-- With durations in whole milliseconds that is no more than the lengths of the deadlines and
pauses. -/
theorem toldAt_le_nanos
    (h : Schedule State.react (initial source target (team.map State.initial)) log w)
    (prompt : ∀ s ∈ log, s.Prompt) {i : Nat} {worker : Worker} (present : team[i]? = some worker)
    (whole : worker.settings.Whole) :
    toldAt i log * 1000000 ≤ worker.batchKeys.length * worker.settings.batchNanos := by
  calc toldAt i log * 1000000
      ≤ worker.batchKeys.length * worker.settings.batchTicks * 1000000 :=
        Nat.mul_le_mul_right _ (toldAt_le h prompt present)
    _ = worker.batchKeys.length * (worker.settings.batchTicks * 1000000) := Nat.mul_assoc _ _ _
    _ ≤ worker.batchKeys.length * worker.settings.batchNanos :=
        Nat.mul_le_mul_left _ whole.batchTicks_le

end Worker

end ReplicaDiff
