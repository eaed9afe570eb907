/-
# ReplicaDiff.Proofs.Tally — what contributions add up to

The order in which contributions come in matters to none of the sums: the keys
that could not be checked are those of the contributions in their order
(`addAll_keysWithError`), the two counters are sums in 64 bits
(`addAll_processed`, `addAll_errors`), and the differences tell of a key what the
one contribution tells of it that tells anything (`addAll_tells`).
-/
import Mathlib.Algebra.GroupWithZero.Nat
import ReplicaDiff.Proofs.DiffSet.Records
import ReplicaDiff.Tally

namespace ReplicaDiff

set_option autoImplicit false

namespace Contribution

/-- The keys that a contribution reports as unchecked. -/
def uncheckedKeys : Contribution → List String
  | .unchecked keys => keys
  | _ => []

/-- The number of keys that a contribution counts as processed. -/
def count : Contribution → Nat
  | .processed count => count.toNat
  | _ => 0

/-- The differences that a contribution brings. -/
def diff? : Contribution → Option DiffSet
  | .merged diff => some diff
  | _ => none

end Contribution

namespace Tally

/-- That findings without a key are skipped makes no difference. -/
theorem mergeDiff_eq (t : Tally) (diff : DiffSet) :
    t.mergeDiff diff =
      { t with results := { t.results with diffs := t.results.diffs.extend diff } } := by
  unfold mergeDiff
  split
  · rename_i empty
    rw [(DiffSet.isEmpty_iff diff).1 empty, DiffSet.extend_empty]
  · rfl

theorem add_keysWithError (t : Tally) (c : Contribution) :
    (t.add c).results.keysWithError = t.results.keysWithError ++ c.uncheckedKeys := by
  cases c with
  | unchecked keys => rfl
  | processed count => simp [add, recordProcessed, Contribution.uncheckedKeys]
  | merged diff => simp [add, mergeDiff_eq, Contribution.uncheckedKeys]

theorem add_processed (t : Tally) (c : Contribution) :
    (t.add c).processed = t.processed + UInt64.ofNat c.count := by
  cases c with
  | unchecked keys => simp [add, addKeysWithError, Contribution.count]
  | processed count => simp [add, recordProcessed, Contribution.count]
  | merged diff => simp [add, mergeDiff_eq, Contribution.count]

theorem add_errors (t : Tally) (c : Contribution) :
    (t.add c).errors = t.errors + UInt64.ofNat c.uncheckedKeys.length := by
  cases c with
  | unchecked keys => rfl
  | processed count => simp [add, recordProcessed, Contribution.uncheckedKeys]
  | merged diff => simp [add, mergeDiff_eq, Contribution.uncheckedKeys]

theorem add_diffs (t : Tally) (c : Contribution) :
    (t.add c).results.diffs = (c.diff?.elim t.results.diffs fun d => t.results.diffs.extend d) := by
  cases c with
  | unchecked keys => rfl
  | processed count => rfl
  | merged diff => simp [add, mergeDiff_eq, Contribution.diff?]

theorem addAll_cons (t : Tally) (c : Contribution) (cs : List Contribution) :
    t.addAll (c :: cs) = (t.add c).addAll cs := rfl

theorem addAll_keysWithError (t : Tally) (cs : List Contribution) :
    (t.addAll cs).results.keysWithError =
      t.results.keysWithError ++ cs.flatMap (·.uncheckedKeys) := by
  induction cs generalizing t with
  | nil => simp [addAll]
  | cons c cs ih => rw [addAll_cons, ih, add_keysWithError, List.flatMap_cons, List.append_assoc]

theorem addAll_processed (t : Tally) (cs : List Contribution) :
    (t.addAll cs).processed = t.processed + UInt64.ofNat (cs.map (·.count)).sum := by
  induction cs generalizing t with
  | nil => simp [addAll]
  | cons c cs ih =>
      rw [addAll_cons, ih, add_processed, List.map_cons, List.sum_cons, UInt64.ofNat_add,
        UInt64.add_assoc]

theorem addAll_errors (t : Tally) (cs : List Contribution) :
    (t.addAll cs).errors =
      t.errors + UInt64.ofNat (cs.flatMap (·.uncheckedKeys)).length := by
  induction cs generalizing t with
  | nil => simp [addAll]
  | cons c cs ih =>
      rw [addAll_cons, ih, add_errors, List.flatMap_cons, List.length_append, UInt64.ofNat_add,
        UInt64.add_assoc]

/-- Where every contribution tells of a key the same verdict or nothing, so does the tally. -/
theorem addAll_tells_or {t : Tally} {cs : List Contribution} {key : String}
    {verdict : Option Classification}
    (before : t.results.diffs.Tells key none ∨ t.results.diffs.Tells key verdict)
    (each : ∀ c ∈ cs, ∀ d, c.diff? = some d → d.Tells key none ∨ d.Tells key verdict) :
    (t.addAll cs).results.diffs.Tells key none ∨
      (t.addAll cs).results.diffs.Tells key verdict := by
  induction cs generalizing t with
  | nil => exact before
  | cons c cs ih =>
      refine ih ?_ fun c' mem => each c' (List.mem_cons_of_mem _ mem)
      rw [add_diffs]
      cases diff : c.diff? with
      | none => exact before
      | some d =>
          rcases each c List.mem_cons_self d diff with none | told
          · exact before.imp (·.extend_none none) (·.extend_none none)
          · exact .inr (DiffSet.Tells.extend before told)

/-- What has been told of a key stays, where what comes in tells the same of it or nothing. -/
theorem addAll_tells_keep {t : Tally} {cs : List Contribution} {key : String}
    {verdict : Option Classification} (before : t.results.diffs.Tells key verdict)
    (each : ∀ c ∈ cs, ∀ d, c.diff? = some d → d.Tells key none ∨ d.Tells key verdict) :
    (t.addAll cs).results.diffs.Tells key verdict := by
  induction cs generalizing t with
  | nil => exact before
  | cons c cs ih =>
      refine ih ?_ fun c' mem => each c' (List.mem_cons_of_mem _ mem)
      rw [add_diffs]
      cases diff : c.diff? with
      | none => exact before
      | some d =>
          rcases each c List.mem_cons_self d diff with none | told
          · exact before.extend_none none
          · exact DiffSet.Tells.extend (.inr before) told

/-- The tally tells of a key what one contribution tells of it, where the others tell the same or
nothing. -/
theorem addAll_tells {t : Tally} {cs : List Contribution} {key : String}
    {verdict : Option Classification} (before : t.results.diffs.Tells key none)
    (each : ∀ c ∈ cs, ∀ d, c.diff? = some d → d.Tells key none ∨ d.Tells key verdict)
    {c : Contribution} {d : DiffSet} (mem : c ∈ cs) (diff : c.diff? = some d)
    (told : d.Tells key verdict) : (t.addAll cs).results.diffs.Tells key verdict := by
  obtain ⟨first, second, rfl⟩ := List.append_of_mem mem
  have split : t.addAll (first ++ c :: second) = ((t.addAll first).add c).addAll second := by
    simp [addAll]
  rw [split]
  refine addAll_tells_keep ?_ fun c' mem' => each c' (by simp [mem'])
  rw [add_diffs, diff]
  exact DiffSet.Tells.extend
    (addAll_tells_or (.inl before) fun c' mem' => each c' (by simp [mem'])) told

end Tally

end ReplicaDiff
