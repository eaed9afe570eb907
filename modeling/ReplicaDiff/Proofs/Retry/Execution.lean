/-
# ReplicaDiff.Proofs.Retry.Execution — the attempts and pauses of one operation

What `execute` does is told by a few numbers: how many attempts are made, and how
many of them a pause follows (`Attempts`).  An operation that first succeeds at
attempt `k` is tried `k` times, if the policy allows as many attempts; else it is
tried as often as the policy allows (`execute_attempts`).  Its pauses are the
first ones that the policy lists, one between each two attempts and none after
the last, and the clock counts every attempt and pause once (`Policy.begins`).

The attempts carry the numbers 1, 2, 3 and so on as natural numbers: the word
that counts them never wraps, even where the policy allows every number that a
word holds.
-/
import ReplicaDiff.Event
import ReplicaDiff.Proofs.Retry

namespace ReplicaDiff.Retry

set_option autoImplicit false

variable {ε α : Type}

/-- When an attempt begins: the attempts before it and the pauses between them are over. -/
def Policy.begins (p : Policy) (trials : Nat → Trial ε α) (attempt : Nat) : Nat :=
  ((List.range' 1 (attempt - 1)).map fun n => (trials n).takes).sum +
    ((p.delays.take (attempt - 1)).map (·.ticks)).sum

/-- When an attempt is over. -/
def Policy.ends (p : Policy) (trials : Nat → Trial ε α) (attempt : Nat) : Nat :=
  p.begins trials attempt + (trials attempt).takes

/-- What is left of the pauses that a policy lists, `n` attempts having failed. -/
structure Course.After (p : Policy) (c : Course) (n : Nat) : Prop where
  attempt : c.attempt.toNat = n + 1
  delays : p.delaysFrom c.delay (p.maxRetries.toNat - n) = p.delays.drop n

namespace Course.After

variable {p : Policy} {c c' : Course} {n : Nat}

theorem first (p : Policy) : (Course.first p).After p 0 := ⟨rfl, rfl⟩

/-- Another attempt is allowed as long as not all have been made. -/
theorem next?_isSome (h : c.After p n) (fewer : n + 1 < p.totalAttempts.toNat) :
    ∃ c', c.next? p = some c' := by
  refine ⟨_, if_neg ?_⟩
  rw [UInt32.le_iff_toNat_le, h.attempt]
  omega

theorem next?_last (h : c.After p n) (all : p.totalAttempts.toNat = n + 1) :
    c.next? p = none := by
  refine if_pos (UInt32.le_iff_toNat_le.2 (Nat.le_of_eq ?_))
  rw [h.attempt, all]

/-- A pause that another attempt follows is one that the policy lists. -/
theorem delay_listed (h : c.After p n) (next : c.next? p = some c') :
    p.delays.drop n =
      c.delay :: p.delaysFrom c'.delay (p.maxRetries.toNat - (n + 1)) := by
  have fewer := (Course.next?_attempt next).2
  have most := p.totalAttempts_le
  rw [h.attempt] at fewer
  have more : p.maxRetries.toNat - n = (p.maxRetries.toNat - (n + 1)) + 1 := by omega
  rw [← h.delays, more, Policy.delaysFrom, Course.next?_delay next]

theorem take_delays (h : c.After p n) (next : c.next? p = some c') :
    p.delays.take (n + 1) = p.delays.take n ++ [c.delay] := by
  rw [List.take_add, h.delay_listed next]
  rfl

theorem next (h : c.After p n) (next : c.next? p = some c') : c'.After p (n + 1) where
  attempt := by rw [(Course.next?_attempt next).1, h.attempt]
  delays := by
    rw [← List.drop_drop, h.delay_listed next]
    rfl

end Course.After

/-- After the pause that follows attempt `n`, the next attempt begins. -/
theorem Policy.begins_succ (p : Policy) (trials : Nat → Trial ε α) {c c' : Course} {n : Nat}
    (after : c.After p n) (next : c.next? p = some c') :
    p.begins trials (n + 2) = p.ends trials (n + 1) + c.delay.ticks := by
  have pauses := after.take_delays next
  simp only [ends, begins, Nat.add_sub_cancel, Nat.reduceSubDiff, pauses, List.range'_1_concat,
    List.map_append, List.sum_append, List.map_singleton, List.sum_singleton]
  rw [Nat.add_comm 1 n]
  omega

/-! ## One attempt -/

section Step

variable {name : String} {p : Policy} {trial : UInt32 → Trial ε α} {c c' : Course} {now : Nat}
  {value : α} {error : ε}

theorem executeFrom_ok (ok : (trial c.attempt).verdict = .ok value) :
    executeFrom name p trial c now =
      ⟨[(c.attempt, now)], [], now + (trial c.attempt).takes, .ok value⟩ := by
  rw [executeFrom, ok]

theorem executeFrom_last (failed : (trial c.attempt).verdict = .error error)
    (last : c.next? p = none) :
    executeFrom name p trial c now =
      ⟨[(c.attempt, now)], [], now + (trial c.attempt).takes,
        .error ⟨name, c.attempt, error⟩⟩ := by
  rw [executeFrom, failed]
  simp only
  split
  · rfl
  · rename_i next
    rw [last] at next
    cases next

theorem executeFrom_again (failed : (trial c.attempt).verdict = .error error)
    (next : c.next? p = some c') :
    executeFrom name p trial c now =
      let finished := now + (trial c.attempt).takes
      let rest := executeFrom name p trial c' (finished + c.delay.ticks)
      { rest with
        calls := (c.attempt, now) :: rest.calls
        backoffs := (finished, ⟨name, c.attempt, c.delay, error⟩) :: rest.backoffs } := by
  rw [executeFrom, failed]
  simp only
  split
  · rename_i last
    rw [next] at last
    cases last
  · rename_i following next'
    rw [next] at next'
    cases next'
    rfl

end Step

/-! ## All attempts -/

/-- The attempts of an operation whose attempt `n` is `trials n`, when `made` of them are made and
a pause follows `pauses` of them. -/
structure Attempts (name : String) (p : Policy) (trials : Nat → Trial ε α) (made pauses : Nat)
    (calls : List (UInt32 × Nat)) (backoffs : List (Nat × Backoff ε)) : Prop where
  /-- They are numbered from one on, in order. -/
  numbered : calls.map (·.1.toNat) = List.range' 1 made
  begun : ∀ call ∈ calls, call.2 = p.begins trials call.1.toNat
  /-- A pause follows each of the first `pauses` attempts, in order. -/
  paused : backoffs.map (·.2.attempt.toNat) = List.range' 1 pauses
  delays : backoffs.map (·.2.delay) = p.delays.take pauses
  /-- The attempt that a pause follows has just failed. -/
  failed : ∀ b ∈ backoffs, b.2.operation = name ∧
    (trials b.2.attempt.toNat).verdict = .error b.2.error ∧ b.1 = p.ends trials b.2.attempt.toNat

namespace Attempts

variable {name : String} {p : Policy} {trials : Nat → Trial ε α} {n : Nat}
  {calls : List (UInt32 × Nat)} {backoffs : List (Nat × Backoff ε)} {c c' : Course} {error : ε}

theorem none (name : String) (p : Policy) (trials : Nat → Trial ε α) :
    Attempts name p trials 0 0 [] [] := ⟨rfl, nofun, rfl, rfl, nofun⟩

/-- One more attempt is made. -/
theorem call (h : Attempts name p trials n n calls backoffs) (after : c.After p n) :
    Attempts name p trials (n + 1) n (calls ++ [(c.attempt, p.begins trials (n + 1))])
      backoffs where
  numbered := by
    rw [List.map_append, h.numbered, List.range'_1_concat, Nat.add_comm 1 n, List.map_singleton,
      after.attempt]
  begun := by
    intro call mem
    rcases List.mem_append.1 mem with old | new
    · exact h.begun call old
    · rw [List.mem_singleton.1 new, after.attempt]
  paused := h.paused
  delays := h.delays
  failed := h.failed

/-- The attempt has failed and a pause follows it. -/
theorem pause (h : Attempts name p trials (n + 1) n calls backoffs) (after : c.After p n)
    (next : c.next? p = some c') (failed : (trials (n + 1)).verdict = .error error) :
    Attempts name p trials (n + 1) (n + 1) calls
      (backoffs ++ [(p.ends trials (n + 1), ⟨name, c.attempt, c.delay, error⟩)]) where
  numbered := h.numbered
  begun := h.begun
  paused := by
    rw [List.map_append, h.paused, List.range'_1_concat, Nat.add_comm 1 n, List.map_singleton,
      after.attempt]
  delays := by rw [List.map_append, h.delays, after.take_delays next, List.map_singleton]
  failed := by
    intro b mem
    rcases List.mem_append.1 mem with old | new
    · exact h.failed b old
    · rw [List.mem_singleton.1 new]
      exact ⟨rfl, by rw [after.attempt]; exact failed, by rw [after.attempt]⟩

/-- What is told of the pauses: for each, the attempt that has just failed and the pause itself. -/
theorem events_eq {made pauses : Nat} {e : Execution ε α}
    (h : Attempts name p trials made pauses e.calls e.backoffs) (describe : ε → String) :
    e.events describe = e.backoffs.map fun b =>
      (p.ends trials b.2.attempt.toNat,
        .backingOff name b.2.attempt b.2.delay (describe b.2.error)) := by
  refine List.map_congr_left fun b mem => ?_
  obtain ⟨operation, -, ended⟩ := h.failed b mem
  rw [Backoff.event, operation, ended]

end Attempts

/-- Attempt `k` is the first that succeeds, and brings `value`. -/
structure FirstSuccess (trials : Nat → Trial ε α) (k : Nat) (value : α) : Prop where
  one_le : 1 ≤ k
  earlier : ∀ n, 1 ≤ n → n < k → ∃ error, (trials n).verdict = .error error
  succeeds : (trials k).verdict = .ok value

/-- Either one of the first `total` attempts is the first to succeed, or all of them fail. -/
theorem firstSuccess_or_failed (trials : Nat → Trial ε α) (total : Nat) :
    (∃ k value, FirstSuccess trials k value ∧ k ≤ total) ∨
      ∀ n, 1 ≤ n → n ≤ total → ∃ error, (trials n).verdict = .error error := by
  induction total with
  | zero => exact .inr fun n one le => by omega
  | succ total ih =>
      rcases ih with ⟨k, value, first, le⟩ | failed
      · exact .inl ⟨k, value, first, Nat.le_succ_of_le le⟩
      cases verdict : (trials (total + 1)).verdict with
      | ok value =>
          refine .inl ⟨total + 1, value, ⟨by omega, fun n one lt => ?_, verdict⟩, Nat.le_refl _⟩
          exact failed n one (Nat.le_of_lt_succ lt)
      | error error =>
          refine .inr fun n one le => ?_
          rcases Nat.lt_or_eq_of_le le with lt | rfl
          · exact failed n one (Nat.le_of_lt_succ lt)
          · exact ⟨error, verdict⟩

section Run

variable (name : String) (p : Policy) (trials : Nat → Trial ε α)

/-- While attempts fail and more are allowed, `execute` makes them and pauses after each. -/
theorem execute_failing (n : Nat) (fewer : n < p.totalAttempts.toNat)
    (failed : ∀ m, 1 ≤ m → m ≤ n → ∃ error, (trials m).verdict = .error error) :
    ∃ c calls backoffs, c.After p n ∧ Attempts name p trials n n calls backoffs ∧
      execute name p (fun attempt => trials attempt.toNat) =
        let rest := executeFrom name p (fun attempt => trials attempt.toNat) c
          (p.begins trials (n + 1))
        { rest with calls := calls ++ rest.calls, backoffs := backoffs ++ rest.backoffs } := by
  induction n with
  | zero => exact ⟨_, [], [], .first p, .none name p trials, rfl⟩
  | succ n ih =>
      obtain ⟨c, calls, backoffs, after, attempts, unfolds⟩ :=
        ih (by omega) fun m one le => failed m one (Nat.le_succ_of_le le)
      obtain ⟨c', next⟩ := after.next?_isSome fewer
      obtain ⟨error, verdict⟩ := failed (n + 1) (Nat.le_add_left 1 n) (Nat.le_refl _)
      have verdict' : (trials c.attempt.toNat).verdict = .error error := by
        rw [after.attempt]
        exact verdict
      refine ⟨c', _, _, after.next next, (attempts.call after).pause after next verdict, ?_⟩
      rw [unfolds, executeFrom_again verdict' next, p.begins_succ trials after next]
      simp only [after.attempt, Policy.ends, List.append_assoc, List.singleton_append]

/-- The operation succeeds at attempt `n + 1` after `n` failures. -/
theorem execute_succeeds {n : Nat} {value : α} (le : n + 1 ≤ p.totalAttempts.toNat)
    (first : FirstSuccess trials (n + 1) value) :
    let run := execute name p fun attempt => trials attempt.toNat
    run.result = .ok value ∧ run.elapsed = p.ends trials (n + 1) ∧
      Attempts name p trials (n + 1) n run.calls run.backoffs := by
  obtain ⟨c, calls, backoffs, after, attempts, unfolds⟩ := execute_failing name p trials n le
    fun m one le => first.earlier m one (Nat.lt_succ_of_le le)
  have verdict : (trials c.attempt.toNat).verdict = .ok value := by
    rw [after.attempt]
    exact first.succeeds
  rw [executeFrom_ok verdict] at unfolds
  simp only [unfolds, List.append_nil]
  exact ⟨trivial, by rw [after.attempt, Policy.ends], attempts.call after⟩

/-- The operation fails at every attempt that the policy allows. -/
theorem execute_exhausts {n : Nat} (all : p.totalAttempts.toNat = n + 1)
    (failed : ∀ m, 1 ≤ m → m ≤ n + 1 → ∃ error, (trials m).verdict = .error error) :
    let run := execute name p fun attempt => trials attempt.toNat
    ∃ error, (trials (n + 1)).verdict = .error error ∧
      run.result = .error ⟨name, p.totalAttempts, error⟩ ∧ run.elapsed = p.ends trials (n + 1) ∧
      Attempts name p trials (n + 1) n run.calls run.backoffs := by
  obtain ⟨c, calls, backoffs, after, attempts, unfolds⟩ := execute_failing name p trials n
    (by omega) fun m one le => failed m one (Nat.le_succ_of_le le)
  obtain ⟨error, last⟩ := failed (n + 1) (Nat.le_add_left 1 n) (Nat.le_refl _)
  have verdict : (trials c.attempt.toNat).verdict = .error error := by
    rw [after.attempt]
    exact last
  have number : c.attempt = p.totalAttempts :=
    UInt32.toNat_inj.1 (after.attempt.trans all.symm)
  rw [executeFrom_last verdict (after.next?_last all)] at unfolds
  simp only [unfolds, List.append_nil]
  exact ⟨error, last, by rw [number], by rw [after.attempt, Policy.ends], attempts.call after⟩

end Run

/-- An operation is tried until it first succeeds, or as often as the policy allows; a pause that
the policy lists comes between each two attempts. -/
theorem execute_attempts (name : String) (p : Policy) (trials : Nat → Trial ε α)
    (describe : ε → String) :
    let run := execute name p fun attempt => trials attempt.toNat
    let total := p.totalAttempts.toNat
    total = min (p.maxRetries.toNat + 1) (2 ^ 32 - 1) ∧
    (∀ k value, FirstSuccess trials k value → k ≤ total →
      run.result = .ok value ∧ run.elapsed = p.ends trials k ∧
        Attempts name p trials k (k - 1) run.calls run.backoffs) ∧
    ((¬∃ k value, FirstSuccess trials k value ∧ k ≤ total) →
      ∃ error, (trials total).verdict = .error error ∧
        run.result = .error ⟨name, p.totalAttempts, error⟩ ∧ run.elapsed = p.ends trials total ∧
        Attempts name p trials total (total - 1) run.calls run.backoffs) ∧
    run.events describe = run.backoffs.map fun b =>
      (p.ends trials b.2.attempt.toNat,
        .backingOff name b.2.attempt b.2.delay (describe b.2.error)) := by
  intro run total
  obtain ⟨most, all⟩ : ∃ n, total = n + 1 := Nat.exists_eq_add_one.2 p.totalAttempts_pos
  have success : ∀ k value, FirstSuccess trials k value → k ≤ total →
      run.result = .ok value ∧ run.elapsed = p.ends trials k ∧
        Attempts name p trials k (k - 1) run.calls run.backoffs := by
    intro k value first le
    obtain ⟨n, rfl⟩ := Nat.exists_eq_add_one.2 first.one_le
    exact execute_succeeds name p trials le first
  have exhausted : (∀ n, 1 ≤ n → n ≤ total → ∃ error, (trials n).verdict = .error error) →
      ∃ error, (trials total).verdict = .error error ∧
        run.result = .error ⟨name, p.totalAttempts, error⟩ ∧ run.elapsed = p.ends trials total ∧
        Attempts name p trials total (total - 1) run.calls run.backoffs := by
    intro failed
    rw [all] at failed ⊢
    exact execute_exhausts name p trials all failed
  have either := firstSuccess_or_failed trials total
  refine ⟨p.totalAttempts_eq, success, fun never => exhausted (either.resolve_left never), ?_⟩
  rcases either with ⟨k, value, first, le⟩ | failed
  · exact (success k value first le).2.2.events_eq describe
  · obtain ⟨-, -, -, -, attempts⟩ := exhausted failed
    exact attempts.events_eq describe

end ReplicaDiff.Retry
