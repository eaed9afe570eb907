/-
# ReplicaDiff.Proofs.Tally.Interleaving — the order in which workers add to a tally

`Interleaves sequences merged` says that `merged` takes the entries of several
sequences in some order that keeps the order of each sequence.  A `Job` is what
one worker adds: counts and unchecked keys, in any number and order, and its
findings at the end.

Where no two jobs have found the same key, every interleaving of the jobs adds up
to the same differences, which are the union of all findings (`DiffSet.IsUnion`),
and to the same counters; the unchecked keys are themselves an interleaving of
those of the jobs.  Before the end, the differences are the union of the findings
that have come in (`addAll_isUnion`) and the counter of errors follows the list
of keys (`errors_toNat_addAll`).
-/
import Mathlib.Algebra.BigOperators.Group.List.Basic
import ReplicaDiff.Proofs.Tally

namespace ReplicaDiff

set_option autoImplicit false

/-! ## Interleavings -/

/-- The entries of some sequences, each sequence in its own order. -/
inductive Interleaves {α : Type} : List (List α) → List α → Prop where
  | done {sequences : List (List α)} (empty : ∀ s ∈ sequences, s = []) : Interleaves sequences []
  | step {before after : List (List α)} {a : α} {rest merged : List α}
      (onward : Interleaves (before ++ rest :: after) merged) :
      Interleaves (before ++ (a :: rest) :: after) (a :: merged)

namespace Interleaves

variable {α β : Type} {sequences : List (List α)} {merged : List α}

/-- Nothing is lost and nothing comes twice. -/
theorem perm (h : Interleaves sequences merged) : merged.Perm sequences.flatten := by
  induction h with
  | done empty =>
      rw [List.flatten_eq_nil_iff.2 empty]
  | @step before after a rest merged _ ih =>
      rw [List.flatten_append, List.flatten_cons] at ih ⊢
      rw [List.cons_append]
      exact (ih.cons a).trans List.perm_middle.symm

/-- Several entries of one sequence may be taken at once. -/
theorem take {before after : List (List α)} {rest : List α} (entries : List α)
    (h : Interleaves (before ++ rest :: after) merged) :
    Interleaves (before ++ (entries ++ rest) :: after) (entries ++ merged) := by
  induction entries with
  | nil => exact h
  | cons a entries ih => exact .step ih

/-- What the entries of an interleaving stand for is an interleaving of what those of the sequences
stand for. -/
theorem flatMap (h : Interleaves sequences merged) (f : α → List β) :
    Interleaves (sequences.map (·.flatMap f)) (merged.flatMap f) := by
  induction h with
  | done empty =>
      refine .done fun s mem => ?_
      obtain ⟨s', mem', rfl⟩ := List.mem_map.1 mem
      rw [empty s' mem']
      rfl
  | @step before after a rest merged _ ih =>
      rw [List.map_append, List.map_cons] at ih ⊢
      exact ih.take (f a)

end Interleaves

/-! ## Unions of differences -/

namespace DiffSet

/-- Two sets of which no key is in both. -/
def Disjoint (a b : DiffSet) : Prop := ∀ key, ¬(a.contains key = true ∧ b.contains key = true)

theorem Disjoint.symm {a b : DiffSet} (h : a.Disjoint b) : b.Disjoint a := fun key both =>
  h key both.symm

/-- The set holds the entries of some sets, each with its documents, and nothing else. -/
structure IsUnion (set : DiffSet) (parts : List DiffSet) : Prop where
  mismatch : ∀ key v, set.mismatch.find? key = some v ↔
    ∃ d ∈ parts, d.mismatch.find? key = some v
  missingFromSource : ∀ key v, set.missingFromSource.find? key = some v ↔
    ∃ d ∈ parts, d.missingFromSource.find? key = some v
  missingFromTarget : ∀ key v, set.missingFromTarget.find? key = some v ↔
    ∃ d ∈ parts, d.missingFromTarget.find? key = some v

theorem contains_of_find? {set : DiffSet} {key : String} (held : (set.mismatch.find? key).isSome ∨
    (set.missingFromSource.find? key).isSome ∨ (set.missingFromTarget.find? key).isSome) :
    set.contains key = true := by
  unfold contains KeyMap.contains
  rcases held with held | held | held <;> simp [held]

namespace IsUnion

variable {set other : DiffSet} {parts parts' : List DiffSet}

theorem empty : DiffSet.empty.IsUnion [] :=
  ⟨by simp [DiffSet.empty], by simp [DiffSet.empty], by simp [DiffSet.empty]⟩

/-- A union does not depend on the order of its parts. -/
theorem of_perm (h : set.IsUnion parts) (perm : parts.Perm parts') : set.IsUnion parts' := by
  constructor
  · intro key v
    rw [h.mismatch]
    exact exists_congr fun d => and_congr_left' perm.mem_iff
  · intro key v
    rw [h.missingFromSource]
    exact exists_congr fun d => and_congr_left' perm.mem_iff
  · intro key v
    rw [h.missingFromTarget]
    exact exists_congr fun d => and_congr_left' perm.mem_iff

/-- There is one union. -/
theorem unique (h : set.IsUnion parts) (h' : other.IsUnion parts) : set = other := by
  have mismatch : set.mismatch = other.mismatch := KeyMap.ext fun key => Option.ext fun v =>
    (h.mismatch key v).trans (h'.mismatch key v).symm
  have source : set.missingFromSource = other.missingFromSource :=
    KeyMap.ext fun key => Option.ext fun v =>
      (h.missingFromSource key v).trans (h'.missingFromSource key v).symm
  have target : set.missingFromTarget = other.missingFromTarget :=
    KeyMap.ext fun key => Option.ext fun v =>
      (h.missingFromTarget key v).trans (h'.missingFromTarget key v).symm
  cases set
  cases other
  cases mismatch
  cases source
  cases target
  rfl

/-- A set that shares no key with the parts of a union can be put to it. -/
theorem extend (h : set.IsUnion parts) (apart : ∀ d ∈ parts, d.Disjoint other) :
    (set.extend other).IsUnion (parts ++ [other]) := by
  -- In each map: what the new set has wins, and no old entry is under a key of the new set.
  have lookup : ∀ {V : Type} (f : DiffSet → KeyMap V),
      (∀ d key, (f d).find? key ≠ none → d.contains key = true) →
      (∀ key v, (f set).find? key = some v ↔ ∃ d ∈ parts, (f d).find? key = some v) →
      ∀ key v, ((f set).merge (f other)).find? key = some v ↔
        ∃ d ∈ parts ++ [other], (f d).find? key = some v := by
    intro V f contains union key v
    rw [KeyMap.find?_merge, Option.or_eq_some_iff, union]
    constructor
    · rintro (own | ⟨-, d, mem, held⟩)
      · exact ⟨other, by simp, own⟩
      · exact ⟨d, List.mem_append_left _ mem, held⟩
    · rintro ⟨d, mem, held⟩
      rcases List.mem_append.1 mem with mem | mem
      · refine .inr ⟨?_, d, mem, held⟩
        refine Option.eq_none_iff_forall_ne_some.2 fun v' own => ?_
        exact apart d mem key ⟨contains d key (by simp [held]), contains other key (by simp [own])⟩
      · rw [List.mem_singleton] at mem
        exact .inl (mem ▸ held)
  have isSome : ∀ {V : Type} {o : Option V}, o ≠ none → o.isSome := fun ne =>
    Option.isSome_iff_ne_none.2 ne
  exact {
    mismatch := lookup (·.mismatch)
      (fun d key held => contains_of_find? (.inl (isSome held))) h.mismatch
    missingFromSource := lookup (·.missingFromSource)
      (fun d key held => contains_of_find? (.inr (.inl (isSome held)))) h.missingFromSource
    missingFromTarget := lookup (·.missingFromTarget)
      (fun d key held => contains_of_find? (.inr (.inr (isSome held)))) h.missingFromTarget }

end IsUnion

end DiffSet

namespace Tally

/-! ## At every moment -/

/-- The differences are the union of the findings that have come in. -/
theorem addAll_isUnion {t : Tally} {parts : List DiffSet} (before : t.results.diffs.IsUnion parts)
    (cs : List Contribution) (apart : (parts ++ cs.filterMap (·.diff?)).Pairwise DiffSet.Disjoint) :
    (t.addAll cs).results.diffs.IsUnion (parts ++ cs.filterMap (·.diff?)) := by
  induction cs generalizing t parts with
  | nil => simpa [addAll] using before
  | cons c cs ih =>
      rw [addAll_cons]
      cases found : c.diff? with
      | none =>
          rw [List.filterMap_cons_none found] at apart ⊢
          refine ih ?_ apart
          rw [add_diffs, found]
          exact before
      | some d =>
          rw [List.filterMap_cons_some found, ← List.singleton_append, ← List.append_assoc] at apart ⊢
          refine ih ?_ apart
          rw [add_diffs, found]
          have earlier := (List.pairwise_append.1 (List.pairwise_append.1 apart).1).2.2
          exact before.extend fun d' mem => earlier d' mem d (by simp)

/-- The counter of errors is the number of error keys, in 64 bits. -/
theorem errors_toNat_addAll (cs : List Contribution) :
    (empty.addAll cs).errors.toNat = (empty.addAll cs).results.keysWithError.length % 2 ^ 64 := by
  rw [addAll_errors, addAll_keysWithError]
  show (0 + UInt64.ofNat _).toNat = ([] ++ _ : List String).length % 2 ^ 64
  rw [UInt64.zero_add, List.nil_append, UInt64.toNat_ofNat']

end Tally

/-! ## Jobs -/

/-- What one worker adds to a tally: unchecked keys and counts, and its findings at the end. -/
structure Job where
  calls : List Contribution
  diff : DiffSet
  /-- The findings come once, and last. -/
  quiet : ∀ c ∈ calls, c.diff? = none

namespace Job

/-- All that a worker adds, in its order. -/
def contributions (j : Job) : List Contribution := j.calls ++ [.merged j.diff]

/-- The keys that a worker reports as unchecked. -/
def unchecked (j : Job) : List String := j.calls.flatMap (·.uncheckedKeys)

/-- The number of keys that a worker counts as processed. -/
def count (j : Job) : Nat := (j.calls.map (·.count)).sum

theorem filterMap_contributions (j : Job) : j.contributions.filterMap (·.diff?) = [j.diff] := by
  unfold contributions
  rw [List.filterMap_append, List.filterMap_eq_nil_iff.2 j.quiet]
  rfl

theorem flatMap_contributions (j : Job) :
    j.contributions.flatMap (·.uncheckedKeys) = j.unchecked := by
  simp [contributions, unchecked, Contribution.uncheckedKeys]

theorem sum_contributions (j : Job) : (j.contributions.map (·.count)).sum = j.count := by
  simp [contributions, count, Contribution.count]

end Job

namespace Tally

section

variable {jobs : List Job} {arrivals : List Contribution}

/-- The findings of all jobs come in, in some order. -/
theorem filterMap_perm (h : Interleaves (jobs.map (·.contributions)) arrivals) :
    (arrivals.filterMap (·.diff?)).Perm (jobs.map (·.diff)) := by
  refine (h.perm.filterMap _).trans (.of_eq ?_)
  rw [List.filterMap_flatten, List.map_map,
    List.map_congr_left fun j _ => j.filterMap_contributions, ← List.flatMap_def]
  exact List.map_eq_flatMap.symm

/-- The unchecked keys are an interleaving of those of the jobs. -/
theorem keysWithError_interleaves (h : Interleaves (jobs.map (·.contributions)) arrivals) :
    Interleaves (jobs.map (·.unchecked)) (empty.addAll arrivals).results.keysWithError := by
  have keys := h.flatMap (·.uncheckedKeys)
  rw [List.map_map, List.map_congr_left fun j _ => j.flatMap_contributions] at keys
  rw [addAll_keysWithError]
  exact keys

/-- The counter of processed keys is the sum of all counts, in 64 bits. -/
theorem processed_toNat (h : Interleaves (jobs.map (·.contributions)) arrivals) :
    (empty.addAll arrivals).processed.toNat = (jobs.map (·.count)).sum % 2 ^ 64 := by
  have total : (arrivals.map (·.count)).sum = (jobs.map (·.count)).sum := by
    rw [(h.perm.map _).sum_nat, List.map_flatten, List.sum_flatten, List.map_map, List.map_map]
    exact congrArg List.sum (List.map_congr_left fun j _ => j.sum_contributions)
  rw [addAll_processed, total]
  show (0 + UInt64.ofNat _).toNat = _
  rw [UInt64.zero_add, UInt64.toNat_ofNat']

/-- The counter of errors is the number of keys of all reports, in 64 bits. -/
theorem errors_toNat (h : Interleaves (jobs.map (·.contributions)) arrivals) :
    (empty.addAll arrivals).errors.toNat =
      (jobs.map fun j => j.unchecked.length).sum % 2 ^ 64 := by
  rw [errors_toNat_addAll, (keysWithError_interleaves h).perm.length_eq, List.length_flatten,
    List.map_map]
  rfl

/-- Up to any moment, the differences are the union of the findings that have come in. -/
theorem isUnion_early (apart : (jobs.map (·.diff)).Pairwise DiffSet.Disjoint)
    {early late : List Contribution}
    (h : Interleaves (jobs.map (·.contributions)) (early ++ late)) :
    (empty.addAll early).results.diffs.IsUnion (early.filterMap (·.diff?)) := by
  have all : ((early ++ late).filterMap (·.diff?)).Pairwise DiffSet.Disjoint :=
    ((filterMap_perm h).pairwise_iff DiffSet.Disjoint.symm).2 apart
  rw [List.filterMap_append] at all
  have before : empty.results.diffs.IsUnion [] := .empty
  exact addAll_isUnion before early (List.pairwise_append.1 all).1

/-- In the end, the differences are the union of the findings of all jobs. -/
theorem isUnion (apart : (jobs.map (·.diff)).Pairwise DiffSet.Disjoint)
    (h : Interleaves (jobs.map (·.contributions)) arrivals) :
    (empty.addAll arrivals).results.diffs.IsUnion (jobs.map (·.diff)) := by
  have whole : Interleaves (jobs.map (·.contributions)) (arrivals ++ []) := by
    rwa [List.append_nil]
  exact (isUnion_early apart whole).of_perm (filterMap_perm h)

end

/-- Jobs of which no two have found the same key add up to the same differences and counters in
whatever order their contributions come in: the union of all findings and the sums of all counts in
64 bits.  The unchecked keys are those of all jobs, each job's in its own order.  After each
contribution the counter of errors is the number of error keys in 64 bits, and the differences are
the union of the findings that have come in. -/
theorem added_in_any_order {jobs : List Job} {arrivals : List Contribution}
    (apart : (jobs.map (·.diff)).Pairwise DiffSet.Disjoint)
    (arrive : Interleaves (jobs.map (·.contributions)) arrivals) :
    (empty.addAll arrivals).results.diffs.IsUnion (jobs.map (·.diff)) ∧
    (empty.addAll arrivals).results.keysWithError.Perm (jobs.flatMap (·.unchecked)) ∧
    Interleaves (jobs.map (·.unchecked)) (empty.addAll arrivals).results.keysWithError ∧
    (empty.addAll arrivals).processed.toNat = (jobs.map (·.count)).sum % 2 ^ 64 ∧
    (empty.addAll arrivals).errors.toNat =
      (jobs.map fun j => j.unchecked.length).sum % 2 ^ 64 ∧
    (∀ arrivals', Interleaves (jobs.map (·.contributions)) arrivals' →
      (empty.addAll arrivals').results.diffs = (empty.addAll arrivals).results.diffs ∧
      (empty.addAll arrivals').processed = (empty.addAll arrivals).processed ∧
      (empty.addAll arrivals').errors = (empty.addAll arrivals).errors) ∧
    ∀ early late, arrivals = early ++ late →
      (empty.addAll early).errors.toNat =
        (empty.addAll early).results.keysWithError.length % 2 ^ 64 ∧
      (empty.addAll early).results.diffs.IsUnion (early.filterMap (·.diff?)) := by
  have keys := keysWithError_interleaves arrive
  refine ⟨isUnion apart arrive, ?_, keys, processed_toNat arrive, errors_toNat arrive, ?_, ?_⟩
  · rw [List.flatMap_def]
    exact keys.perm
  · intro arrivals' arrive'
    refine ⟨(isUnion apart arrive').unique (isUnion apart arrive), ?_, ?_⟩
    · exact UInt64.toNat_inj.1 ((processed_toNat arrive').trans (processed_toNat arrive).symm)
    · exact UInt64.toNat_inj.1 ((errors_toNat arrive').trans (errors_toNat arrive).symm)
  · rintro early late rfl
    exact ⟨errors_toNat_addAll early, isUnion_early apart arrive⟩

/-- A worker with a batch that could not be checked, which has found one key. -/
def failedBatch : Job where
  calls := [.unchecked ["b", "a"], .processed 2]
  diff := DiffSet.empty.record "c" (.missingFromTarget ⟨[1], 0, 0, 0⟩)
  quiet := by simp [Contribution.diff?]

/-- A worker with one batch that was checked and one that was not, which has found one key. -/
def mixedBatches : Job where
  calls := [.processed 1, .unchecked ["z"], .processed 1]
  diff := DiffSet.empty.record "d" (.missingFromSource ⟨[2], 0, 0, 0⟩)
  quiet := by simp [Contribution.diff?]

/-- The second worker comes in between the reports of the first. -/
def mixedArrivals : List Contribution :=
  [.processed 1, .unchecked ["b", "a"], .unchecked ["z"], .processed 1, .merged mixedBatches.diff] ++
    [.processed 2, .merged failedBatch.diff]

/-- Two workers whose contributions come in between each other. -/
theorem added_in_any_order_two_jobs :
    [failedBatch.diff, mixedBatches.diff].Pairwise DiffSet.Disjoint ∧
    Interleaves [failedBatch.contributions, mixedBatches.contributions] mixedArrivals ∧
    (empty.addAll mixedArrivals).results.diffs.IsUnion [failedBatch.diff, mixedBatches.diff] ∧
    (empty.addAll mixedArrivals).results.keysWithError.Perm ["b", "a", "z"] ∧
    (empty.addAll mixedArrivals).processed.toNat = 4 ∧
    (empty.addAll mixedArrivals).errors.toNat = 3 ∧
    (empty.addAll [.processed 1, .unchecked ["b", "a"], .unchecked ["z"], .processed 1,
      .merged mixedBatches.diff]).results.diffs.IsUnion [mixedBatches.diff] := by
  have apart : ([failedBatch, mixedBatches].map (·.diff)).Pairwise DiffSet.Disjoint := by
    refine List.pairwise_pair.2 fun key both => ?_
    simp only [failedBatch, mixedBatches, DiffSet.record, DiffSet.empty, DiffSet.contains,
      KeyMap.contains, KeyMap.find?_insert, KeyMap.find?_empty] at both
    by_cases same : "c" = key
    · subst same
      simp at both
    · simp [same] at both
  have arrive : Interleaves ([failedBatch, mixedBatches].map (·.contributions)) mixedArrivals := by
    refine @Interleaves.step _ [_] [] _ _ _ (@Interleaves.step _ [] [_] _ _ _ ?_)
    refine @Interleaves.step _ [_] [] _ _ _ (@Interleaves.step _ [_] [] _ _ _ ?_)
    refine @Interleaves.step _ [_] [] _ _ _ (@Interleaves.step _ [] [_] _ _ _ ?_)
    exact @Interleaves.step _ [] [_] _ _ _ (.done (by simp))
  obtain ⟨union, keys, -, processed, errors, -, moments⟩ := added_in_any_order apart arrive
  exact ⟨apart, arrive, union, keys, processed, errors, (moments _ _ rfl).2⟩

end Tally

end ReplicaDiff
