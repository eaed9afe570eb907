/-
# ReplicaDiff.Proofs.Retry — pauses in whole milliseconds

A clock with millisecond resolution lets a span of whole milliseconds pass in no
more than its length (`Duration.Whole.ticks_le`).  When the interval and the cap
of a policy are such spans, so are all of its pauses (`Policy.Whole.pauses_le`):
a pause that is multiplied beyond the longest span is cut back to the cap.
-/
import Mathlib.Algebra.GroupWithZero.Nat
import ReplicaDiff.Retry

namespace ReplicaDiff

set_option autoImplicit false

namespace Duration

/-- A span of whole milliseconds. -/
def Whole (d : Duration) : Prop := 1000000 ∣ d.toNanos

instance (d : Duration) : Decidable d.Whole := inferInstanceAs (Decidable (_ ∣ _))

/-- The clock lets a span of whole milliseconds pass in no more than its length. -/
theorem Whole.ticks_le {d : Duration} (whole : d.Whole) : d.ticks * 1000000 ≤ d.toNanos := by
  unfold Whole at whole
  unfold ticks
  split
  · rename_i beyond
    simp only [toNanos, nanosPerSecond, clockRange, horizon] at beyond ⊢
    omega
  · simp only [toNanos, nanosPerSecond] at whole ⊢
    omega

theorem Whole.shorter {a b : Duration} (whole : a.Whole) (whole' : b.Whole) :
    (a.shorter b).Whole := by
  unfold Duration.shorter
  split
  · exact whole
  · exact whole'

theorem toNanos_le_longest (d : Duration) : d.toNanos ≤ longest.toNanos := by
  have secs := d.secs_le
  have nanos := d.nanos_lt
  simp only [toNanos, longest, maxSeconds, nanosPerSecond] at secs nanos ⊢
  omega

end Duration

namespace Retry.Policy

/-- A policy whose interval and cap are whole milliseconds. -/
structure Whole (p : Policy) : Prop where
  interval : p.interval.Whole
  maxBackoff : p.maxBackoff.Whole

variable {p : Policy}

theorem Whole.firstDelay (h : p.Whole) : p.firstDelay.Whole := h.interval.shorter h.maxBackoff

/-- A pause that has grown is the product or the cap: the longest span is no shorter than the cap. -/
theorem toNanos_nextDelay (p : Policy) (delay : Duration) :
    (p.nextDelay delay).toNanos = min (delay.toNanos * p.factor.toNat) p.maxBackoff.toNanos := by
  have cap := p.maxBackoff.toNanos_le_longest
  rw [nextDelay, Duration.toNanos_shorter, Duration.toNanos_scale]
  omega

theorem Whole.nextDelay (h : p.Whole) {delay : Duration} (whole : delay.Whole) :
    (p.nextDelay delay).Whole := by
  unfold Duration.Whole
  rw [toNanos_nextDelay]
  rcases Nat.le_total (delay.toNanos * p.factor.toNat) p.maxBackoff.toNanos with le | le
  · rw [Nat.min_eq_left le]
    exact Nat.dvd_mul_right_of_dvd whole _
  · rw [Nat.min_eq_right le]
    exact h.maxBackoff

/-- The milliseconds that the clock lets pass in the first `n` pauses from one of length `delay`
on. -/
def pauseTicks (p : Policy) (delay : Duration) (n : Nat) : Nat :=
  ((p.delaysFrom delay n).map (·.ticks)).sum

theorem pauseTicks_succ (p : Policy) (delay : Duration) (n : Nat) :
    p.pauseTicks delay (n + 1) = delay.ticks + p.pauseTicks (p.nextDelay delay) n := rfl

/-- Pauses of whole milliseconds take no more than their lengths. -/
theorem Whole.pauses_le (h : p.Whole) {delay : Duration} (whole : delay.Whole) (n : Nat) :
    p.pauseTicks delay n * 1000000 ≤ ((p.delaysFrom delay n).map (·.toNanos)).sum := by
  induction n generalizing delay with
  | zero => simp [pauseTicks, delaysFrom]
  | succ n ih =>
      rw [pauseTicks_succ, delaysFrom, List.map_cons, List.sum_cons, Nat.add_mul]
      exact Nat.add_le_add whole.ticks_le (ih (h.nextDelay whole))

theorem take_delaysFrom (p : Policy) {m n : Nat} (le : m ≤ n) (delay : Duration) :
    (p.delaysFrom delay n).take m = p.delaysFrom delay m := by
  induction m generalizing n delay with
  | zero => rfl
  | succ m ih =>
      obtain ⟨n, rfl⟩ := Nat.exists_eq_add_of_lt le
      rw [show m + n + 1 = (m + n) + 1 from rfl, delaysFrom, List.take_succ_cons,
        ih (Nat.le_add_right _ _), delaysFrom]

/-- A policy allows one attempt more than repetitions, and no more than a word counts. -/
theorem totalAttempts_eq (p : Policy) :
    p.totalAttempts.toNat = min (p.maxRetries.toNat + 1) (2 ^ 32 - 1) := by
  have bound := p.maxRetries.toNat_lt
  unfold totalAttempts
  split
  · rename_i most
    rw [most]
    rfl
  · rename_i fewer
    have ne : p.maxRetries.toNat ≠ 4294967295 := fun eq => fewer (UInt32.toNat_inj.1 eq)
    have one : (1 : UInt32).toNat = 1 := rfl
    rw [UInt32.toNat_add, one, Nat.mod_eq_of_lt (by omega)]
    omega

/-- A policy allows an attempt. -/
theorem totalAttempts_pos (p : Policy) : 0 < p.totalAttempts.toNat := by
  rw [totalAttempts_eq]
  omega

/-- There is a pause for each attempt but the first. -/
theorem totalAttempts_le (p : Policy) : p.totalAttempts.toNat ≤ p.maxRetries.toNat + 1 := by
  rw [totalAttempts_eq]
  omega

/-- The pauses between all attempts are the first of those that a policy lists. -/
theorem take_delays (p : Policy) :
    p.delays.take (p.totalAttempts.toNat - 1) =
      p.delaysFrom p.firstDelay (p.totalAttempts.toNat - 1) :=
  p.take_delaysFrom (Nat.sub_le_of_le_add p.totalAttempts_le) p.firstDelay

end Retry.Policy

/-- The pause after the next attempt has grown. -/
theorem Retry.Course.next?_delay {p : Policy} {c c' : Course} (h : c.next? p = some c') :
    c'.delay = p.nextDelay c.delay := by
  unfold next? at h
  split at h
  · cases h
  · cases h
    rfl

end ReplicaDiff
