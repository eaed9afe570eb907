/-
# ReplicaDiff.Retry — attempts with growing pauses

A `Policy` says how often an operation is repeated and how the pause between two
attempts grows: it is multiplied by a factor after each failure and never passes
a cap.  A `Course` is where a sequence of attempts stands; `execute` runs one
operation to its end.
-/
import ReplicaDiff.Duration

namespace ReplicaDiff.Retry

set_option autoImplicit false

/-- How often to repeat, and with which pauses. -/
structure Policy where
  maxRetries : UInt32
  interval : Duration
  factor : UInt32
  maxBackoff : Duration
deriving DecidableEq, Inhabited

namespace Policy

/-- The pause after one of length `current`. -/
def nextDelay (p : Policy) (current : Duration) : Duration :=
  (current.scale p.factor).shorter p.maxBackoff

/-- Attempts in all, the first one included; 2^32 - 1 at most. -/
def totalAttempts (p : Policy) : UInt32 :=
  if p.maxRetries = 4294967295 then p.maxRetries else p.maxRetries + 1

/-- The pause after the first attempt. -/
def firstDelay (p : Policy) : Duration := p.interval.shorter p.maxBackoff

/-- The pauses from one of length `delay` on. -/
def delaysFrom (p : Policy) (delay : Duration) : Nat → List Duration
  | 0 => []
  | n + 1 => delay :: delaysFrom p (p.nextDelay delay) n

/-- The pauses before each repetition. -/
def delays (p : Policy) : List Duration := p.delaysFrom p.firstDelay p.maxRetries.toNat

end Policy

/-- The number of the attempt under way, and the pause that follows if it fails. -/
structure Course where
  attempt : UInt32
  delay : Duration
deriving DecidableEq, Inhabited

namespace Course

/-- Before the first attempt has failed. -/
def first (p : Policy) : Course := ⟨1, p.firstDelay⟩

/-- The next attempt, unless the last one has been made. -/
def next? (p : Policy) (c : Course) : Option Course :=
  if p.totalAttempts ≤ c.attempt then none
  else some ⟨c.attempt + 1, p.nextDelay c.delay⟩

theorem next?_attempt {p : Policy} {c c' : Course} (h : c.next? p = some c') :
    c'.attempt.toNat = c.attempt.toNat + 1 ∧ c.attempt.toNat < p.totalAttempts.toNat := by
  unfold next? at h
  split at h
  · cases h
  · rename_i hlt
    cases h
    have hlt' : c.attempt.toNat < p.totalAttempts.toNat := by
      rw [UInt32.le_iff_toNat_le] at hlt
      omega
    have hbound := p.totalAttempts.toNat_lt
    refine ⟨?_, hlt'⟩
    rw [UInt32.toNat_add]
    have : (1 : UInt32).toNat = 1 := rfl
    omega

end Course

/-- The operation failed at every attempt. -/
structure Exhausted (ε : Type) where
  operation : String
  attempts : UInt32
  lastError : ε
deriving DecidableEq

/-- The text of an exhausted operation, given the text of its last error. -/
def Exhausted.message {ε : Type} (describe : ε → String) (e : Exhausted ε) : String :=
  e.operation ++ " failed after " ++ toString e.attempts.toNat ++ " attempt(s): "
    ++ describe e.lastError

/-- One attempt: the milliseconds it takes and what comes of it. -/
structure Trial (ε α : Type) where
  takes : Nat
  verdict : Except ε α

/-- A failed attempt that is to be repeated after a pause. -/
structure Backoff (ε : Type) where
  operation : String
  attempt : UInt32
  delay : Duration
  error : ε

/-- All that one operation did: its attempts and pauses with the milliseconds at which they
began, when it was over, and what came of it. -/
structure Execution (ε α : Type) where
  calls : List (UInt32 × Nat)
  backoffs : List (Nat × Backoff ε)
  elapsed : Nat
  result : Except (Exhausted ε) α

/-- Run an operation from the attempt `course` on, which begins at `now`. -/
def executeFrom {ε α : Type} (name : String) (p : Policy) (trial : UInt32 → Trial ε α)
    (course : Course) (now : Nat) : Execution ε α :=
  let t := trial course.attempt
  let finished := now + t.takes
  match t.verdict with
  | .ok value => ⟨[(course.attempt, now)], [], finished, .ok value⟩
  | .error error =>
      match _h : course.next? p with
      | none => ⟨[(course.attempt, now)], [], finished, .error ⟨name, course.attempt, error⟩⟩
      | some following =>
          let rest := executeFrom name p trial following (finished + course.delay.ticks)
          { rest with
            calls := (course.attempt, now) :: rest.calls
            backoffs := (finished, ⟨name, course.attempt, course.delay, error⟩) :: rest.backoffs }
termination_by p.totalAttempts.toNat - course.attempt.toNat
decreasing_by
  have h := Course.next?_attempt _h
  omega

/-- Try an operation until it succeeds or its attempts are used up. -/
def execute {ε α : Type} (name : String) (p : Policy) (trial : UInt32 → Trial ε α) :
    Execution ε α :=
  executeFrom name p trial (Course.first p) 0

end ReplicaDiff.Retry
