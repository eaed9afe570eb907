/-
# ReplicaDiff.Proofs.World.Decision — what the fates of its fetches make of a round

`decision` says from the fates of its fetches alone what comes of a round and how
long it takes: it succeeds with every answer when all fetches answer before the
deadline, it is closed when all are over before the deadline but some have not
answered, and otherwise it times out.  `Settled.decision` says that a round of a
prompt schedule is settled so, whatever order the tasks come in that are due
together, if no fetch is over exactly at the deadline.
-/
import Mathlib.Data.Finset.Lattice.Fold
import Mathlib.Order.Lattice.Nat
import ReplicaDiff.Proofs.World.Timed

namespace ReplicaDiff

set_option autoImplicit false

namespace Batch

/-- The fates of the fetches of a round, by side and slot. -/
abbrev Fates := Side → Nat → Fate

namespace Fates

/-- All fetches of the first `n` slots answer before a limit. -/
def allAnswer (f : Fates) (n limit : Nat) : Prop :=
  ∀ side slot, slot < n → ((f side slot).answerWithin limit).isSome

/-- All fetches of the first `n` slots are over before a limit. -/
def allEnd (f : Fates) (n limit : Nat) : Prop :=
  ∀ side slot, slot < n → (f side slot).endsWithin limit = true

/-- The answers that come before a limit. -/
def answers (f : Fates) (limit : Nat) : Answers := fun side slot => (f side slot).answerWithin limit

/-- When the last of the fetches of the first `n` slots is over. -/
def lastEnd (f : Fates) (n : Nat) : Nat :=
  (Finset.range n).sup fun slot => max (f .source slot).time (f .target slot).time

theorem forall_iff_forall_lt {q : Side → Nat → Prop} {n : Nat} :
    (∀ side slot, slot < n → q side slot) ↔ ∀ slot, slot < n → q .source slot ∧ q .target slot := by
  constructor
  · intro all slot bound
    exact ⟨all .source slot bound, all .target slot bound⟩
  · intro all side slot bound
    cases side with
    | source => exact (all slot bound).1
    | target => exact (all slot bound).2

instance (f : Fates) (n limit : Nat) : Decidable (f.allAnswer n limit) :=
  decidable_of_iff _ forall_iff_forall_lt.symm

instance (f : Fates) (n limit : Nat) : Decidable (f.allEnd n limit) :=
  decidable_of_iff _ forall_iff_forall_lt.symm

end Fates

/-- What comes of a round over some keys, and how long it takes. -/
def decision (keys : List String) (timeout : Duration) (f : Fates) : Except Error Results × Nat :=
  let answers := f.answers timeout.ticks
  let source := unanswered keys.length (answers .source)
  let target := unanswered keys.length (answers .target)
  if f.allAnswer keys.length timeout.ticks then
    (.ok ⟨slotsOf keys (answers .source), slotsOf keys (answers .target)⟩, f.lastEnd keys.length)
  else if f.allEnd keys.length timeout.ticks then
    (.error (.channelClosed (source + target)), f.lastEnd keys.length)
  else (.error (.timeout keys.length timeout.secs source target), timeout.ticks)

/-- What a round brings when all its fetches answer in time. -/
def gathered (keys : List String) (limit : Nat) (f : Fates) : Option Results :=
  if f.allAnswer keys.length limit then
    some ⟨slotsOf keys (f.answers limit .source), slotsOf keys (f.answers limit .target)⟩
  else none

/-- Only the fates of the slots of its keys decide a round. -/
theorem decision_congr {keys : List String} {timeout : Duration} {f g : Fates}
    (same : ∀ side slot, slot < keys.length → f side slot = g side slot) :
    decision keys timeout f = decision keys timeout g := by
  have answers : ∀ side slot, slot < keys.length →
      f.answers timeout.ticks side slot = g.answers timeout.ticks side slot := by
    intro side slot bound
    unfold Fates.answers
    rw [same side slot bound]
  have slots : ∀ side, slotsOf keys (f.answers timeout.ticks side) =
      slotsOf keys (g.answers timeout.ticks side) := fun side => slotsOf_congr (answers side)
  have counts : ∀ side, unanswered keys.length (f.answers timeout.ticks side) =
      unanswered keys.length (g.answers timeout.ticks side) :=
    fun side => List.countP_congr fun slot mem => by rw [answers side slot (List.mem_range.1 mem)]
  have all : f.allAnswer keys.length timeout.ticks ↔ g.allAnswer keys.length timeout.ticks :=
    forall_congr' fun side => forall_congr' fun slot => imp_congr_right fun bound => by
      rw [same side slot bound]
  have ended : f.allEnd keys.length timeout.ticks ↔ g.allEnd keys.length timeout.ticks :=
    forall_congr' fun side => forall_congr' fun slot => imp_congr_right fun bound => by
      rw [same side slot bound]
  have last : f.lastEnd keys.length = g.lastEnd keys.length :=
    Finset.sup_congr rfl fun slot mem => by
      rw [same .source slot (Finset.mem_range.1 mem), same .target slot (Finset.mem_range.1 mem)]
  unfold decision
  simp only [slots, counts, all, ended, last]

end Batch

namespace World

open ReplicaDiff.Batch

/-- What a fetch has come to by the end of its round is what its fate has it come to. -/
theorem Progress.Current.within {x : Progress} {f : Fate} {opened moment limit : Nat}
    (current : x.Current opened moment) (fate : x.fate? = some f)
    (ended : x.isOver = true ∨ moment = opened + limit) (inTime : moment ≤ opened + limit)
    (off : ∀ answer, f ≠ .ends answer limit) :
    x.answer? = f.answerWithin limit ∧ x.isOver = f.endsWithin limit := by
  cases x with
  | ahead => cases fate
  | hung =>
      cases fate
      exact ⟨rfl, rfl⟩
  | finished answer after =>
      cases fate
      have ne : after ≠ limit := fun eq => off answer (by rw [eq])
      have le : opened + after ≤ moment := current
      have early : after < limit := by omega
      simp [answer?, isOver, Fate.answerWithin, Fate.endsWithin, early]
  | going answer after =>
      cases fate
      have le : moment ≤ opened + after := current
      have late : ¬after < limit := by
        rcases ended with finished | time
        · cases finished
        · omega
      simp [answer?, isOver, Fate.answerWithin, Fate.endsWithin, late]

/-- The answer of a fetch is the one that its fate gives it in time. -/
theorem Progress.Current.answerWithin_of_answer {x : Progress} {f : Fate}
    {opened moment limit : Nat} {outcome : Outcome} (current : x.Current opened moment)
    (fate : x.fate? = some f) (answer : x.answer? = some outcome)
    (inTime : moment ≤ opened + limit) (off : f ≠ .ends (some outcome) limit) :
    f.answerWithin limit = some outcome := by
  cases x with
  | ahead => cases answer
  | going answer' after => cases answer
  | hung => cases answer
  | finished answer' after =>
      obtain rfl : answer' = some outcome := answer
      obtain rfl : Fate.ends (some outcome) after = f := Option.some.inj fate
      have ne : after ≠ limit := fun eq => off (by rw [eq])
      have le : opened + after ≤ moment := current
      have early : after < limit := by omega
      simp [Fate.answerWithin, early]

/-- A fetch that is over without an answer has none. -/
theorem Progress.answerWithin_of_silent {x : Progress} {f : Fate} (fate : x.fate? = some f)
    (finished : x.isOver = true) (silent : x.answer? = none) (limit : Nat) :
    f.answerWithin limit = none := by
  cases x with
  | ahead => cases finished
  | going answer after => cases finished
  | hung => cases finished
  | finished answer after =>
      obtain rfl : answer = none := silent
      obtain rfl : Fate.ends none after = f := Option.some.inj fate
      simp [Fate.answerWithin]

/-- A fetch that is not over when time is up has no answer in time. -/
theorem Progress.Current.answerWithin_of_unended {x : Progress} {f : Fate} {opened limit : Nat}
    (current : x.Current opened (opened + limit)) (fate : x.fate? = some f)
    (unended : x.isOver = false) : f.answerWithin limit = none := by
  cases x with
  | ahead => cases fate
  | finished answer after => cases unended
  | hung =>
      rw [← Option.some.inj fate]
      rfl
  | going answer after =>
      have le : opened + limit ≤ opened + after := current
      have late : ¬after < limit := by omega
      rw [← Option.some.inj fate]
      simp [Fate.answerWithin, late]

/-- The last end among fetches that are over, one of them just now. -/
theorem lastEnd_of_latest {keys : List String} {opened moment : Nat} {p : Places} {f : Fates}
    (latest : Latest keys opened p moment)
    (current : ∀ side slot, slot < keys.length → (p side slot).Current opened moment)
    (finished : ∀ side slot, slot < keys.length → (p side slot).isOver = true)
    (fates : ∀ side slot, slot < keys.length → (p side slot).fate? = some (f side slot)) :
    moment = opened + f.lastEnd keys.length := by
  have ended : ∀ side slot, slot < keys.length → opened + (f side slot).time ≤ moment := by
    intro side slot bound
    have current := current side slot bound
    have finished := finished side slot bound
    have fate := fates side slot bound
    cases progress : p side slot with
    | finished answer after =>
        rw [progress] at fate current
        rw [← Option.some.inj fate]
        exact current
    | ahead => rw [progress] at finished; cases finished
    | going answer after => rw [progress] at finished; cases finished
    | hung => rw [progress] at finished; cases finished
  have begun : opened ≤ moment := by
    rcases latest with ⟨-, rfl⟩ | ⟨-, -, -, after, -, -, time⟩ <;> omega
  apply Nat.le_antisymm
  · rcases latest with ⟨-, rfl⟩ | ⟨side, slot, answer, after, bound, progress, rfl⟩
    · exact Nat.le_add_right _ _
    · have fate := fates side slot bound
      rw [progress] at fate
      have time : (f side slot).time = after := by
        rw [← Option.some.inj fate]
        rfl
      have here : max (f .source slot).time (f .target slot).time ≤ f.lastEnd keys.length :=
        Finset.le_sup (f := fun slot => max (f .source slot).time (f .target slot).time)
          (Finset.mem_range.2 bound)
      cases side <;> omega
  · have last : f.lastEnd keys.length ≤ moment - opened := by
      refine Finset.sup_le fun slot mem => ?_
      have source := ended .source slot (Finset.mem_range.1 mem)
      have target := ended .target slot (Finset.mem_range.1 mem)
      omega
    omega

/-- A round is settled as the fates of its fetches decide. -/
theorem Settled.decision {rules : Side → Rule} {client serial opened moment : Nat}
    {keys : List String} {timeout : Duration} {calls : List Ticket}
    {verdict : Except Batch.Error Results} {p : Places} {f : Fates}
    (h : Settled rules client serial opened keys timeout calls moment verdict p)
    (fates : ∀ side slot, slot < keys.length → (p side slot).fate? = some (f side slot))
    (off : ∀ side slot, slot < keys.length → ∀ answer, f side slot ≠ .ends answer timeout.ticks) :
    verdict = (Batch.decision keys timeout f).1 ∧
      moment = opened + (Batch.decision keys timeout f).2 := by
  -- However the round was settled, each fetch was over by then or time was up.
  have within : (∀ side slot, slot < keys.length →
        (p side slot).isOver = true ∨ moment = opened + timeout.ticks) →
      ∀ side slot, slot < keys.length →
        (p side slot).answer? = (f side slot).answerWithin timeout.ticks ∧
          (p side slot).isOver = (f side slot).endsWithin timeout.ticks :=
    fun ended side slot bound => (h.current side slot bound).within (fates side slot bound)
      (ended side slot bound) h.inTime (off side slot bound)
  have answers : (∀ side slot, slot < keys.length →
        (p side slot).answer? = (f side slot).answerWithin timeout.ticks) → ∀ side,
      slotsOf keys (p.answers side) = slotsOf keys (f.answers timeout.ticks side) ∧
        unanswered keys.length (p.answers side) =
          unanswered keys.length (f.answers timeout.ticks side) := by
    intro same side
    refine ⟨slotsOf_congr (same side), List.countP_congr fun slot mem => ?_⟩
    have eq : p.answers side slot = f.answers timeout.ticks side slot :=
      same side slot (List.mem_range.1 mem)
    rw [eq]
  cases h.settlement with
  | answered all latest =>
      have finished : ∀ side slot, slot < keys.length → (p side slot).isOver = true := by
        intro side slot bound
        have some := all side slot bound
        cases progress : p side slot <;> rw [progress] at some <;> first | rfl | cases some
      have within := within fun side slot bound => .inl (finished side slot bound)
      have same := answers fun side slot bound => (within side slot bound).1
      have answer : f.allAnswer keys.length timeout.ticks := by
        intro side slot bound
        rw [← (within side slot bound).1]
        exact all side slot bound
      unfold Batch.decision
      rw [if_pos answer, (same .source).1, (same .target).1]
      exact ⟨rfl, lastEnd_of_latest latest h.current finished fates⟩
  | closed all silent latest =>
      have within := within fun side slot bound => .inl (all side slot bound)
      have same := answers fun side slot bound => (within side slot bound).1
      have some : ¬f.allAnswer keys.length timeout.ticks := by
        intro answer
        obtain ⟨side, slot, bound, none⟩ := silent
        have some := answer side slot bound
        rw [← (within side slot bound).1, none] at some
        cases some
      have ended : f.allEnd keys.length timeout.ticks := by
        intro side slot bound
        rw [← (within side slot bound).2]
        exact all side slot bound
      unfold Batch.decision
      rw [if_neg some, if_pos ended, (same .source).2, (same .target).2]
      exact ⟨rfl, lastEnd_of_latest latest h.current all fates⟩
  | late missing time =>
      have within := within fun _ _ _ => .inr time
      have same := answers fun side slot bound => (within side slot bound).1
      obtain ⟨side, slot, bound, unended⟩ := missing
      rw [(within side slot bound).2] at unended
      have ended : ¬f.allEnd keys.length timeout.ticks := by
        intro all
        rw [all side slot bound] at unended
        cases unended
      have answer : ¬f.allAnswer keys.length timeout.ticks := fun all =>
        ended fun side slot bound => Fate.endsWithin_of_answerWithin (all side slot bound)
      unfold Batch.decision
      rw [if_neg answer, if_neg ended, (same .source).2, (same .target).2]
      exact ⟨rfl, time⟩

/-- A round succeeds exactly when all its fetches answer in time, and then with these answers; no
fetch may answer exactly at the deadline, but some may be over then without a word. -/
theorem Settled.gathered {rules : Side → Rule} {client serial opened moment : Nat}
    {keys : List String} {timeout : Duration} {calls : List Ticket}
    {verdict : Except Batch.Error Results} {p : Places} {f : Fates}
    (h : Settled rules client serial opened keys timeout calls moment verdict p)
    (fates : ∀ side slot, slot < keys.length → (p side slot).fate? = some (f side slot))
    (off : ∀ side slot, slot < keys.length → ∀ outcome,
      f side slot ≠ .ends (some outcome) timeout.ticks) :
    verdict.toOption = Batch.gathered keys timeout.ticks f := by
  cases h.settlement with
  | answered all latest =>
      have same : ∀ side slot, slot < keys.length →
          p.answers side slot = f.answers timeout.ticks side slot := by
        intro side slot bound
        obtain ⟨outcome, answer⟩ := Option.isSome_iff_exists.1 (all side slot bound)
        exact answer.trans ((h.current side slot bound).answerWithin_of_answer
          (fates side slot bound) answer h.inTime (off side slot bound outcome)).symm
      have answer : f.allAnswer keys.length timeout.ticks := by
        intro side slot bound
        have there := same side slot bound
        unfold Fates.answers at there
        rw [← there]
        exact all side slot bound
      unfold Batch.gathered
      rw [if_pos answer, ← slotsOf_congr (same .source), ← slotsOf_congr (same .target)]
      rfl
  | closed all silent latest =>
      obtain ⟨side, slot, bound, none⟩ := silent
      have unanswered : ¬f.allAnswer keys.length timeout.ticks := by
        intro answer
        have some := answer side slot bound
        rw [Progress.answerWithin_of_silent (fates side slot bound) (all side slot bound) none]
          at some
        cases some
      unfold Batch.gathered
      rw [if_neg unanswered]
      rfl
  | late missing time =>
      obtain ⟨side, slot, bound, unended⟩ := missing
      have unanswered : ¬f.allAnswer keys.length timeout.ticks := by
        intro answer
        have some := answer side slot bound
        have current := h.current side slot bound
        rw [time] at current
        rw [current.answerWithin_of_unended (fates side slot bound) unended] at some
        cases some
      unfold Batch.gathered
      rw [if_neg unanswered]
      rfl

end World

end ReplicaDiff
