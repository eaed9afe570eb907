/-
# ReplicaDiff.Tally — the results of a run as they come in

Workers add to the tally at three moments: when a batch could not be checked,
when a batch is over in whatever way, and when they are done.  The two counters
have 64 bits and wrap around.
-/
import ReplicaDiff.DiffSet

namespace ReplicaDiff

set_option autoImplicit false

/-- The results of a run at one moment. -/
structure Snapshot where
  diffs : DiffSet
  keysWithError : List String
deriving DecidableEq, Inhabited

namespace Snapshot

/-- Every key that was found to differ. -/
def diffKeys (s : Snapshot) : List String := s.diffs.keys

end Snapshot

/-- What a worker adds to the results of a run. -/
inductive Contribution where
  /-- The keys of a batch that could not be checked. -/
  | unchecked (keys : List String)
  /-- The number of keys of a batch that is over. -/
  | processed (count : UInt64)
  /-- All that a worker has found. -/
  | merged (diff : DiffSet)
deriving DecidableEq

/-- The results of a run as they come in. -/
structure Tally where
  results : Snapshot
  processed : UInt64
  errors : UInt64
deriving DecidableEq, Inhabited

namespace Tally

/-- The tally before anything has come in. -/
def empty : Tally := ⟨⟨.empty, []⟩, 0, 0⟩

/-- Add the findings of a worker; one that found nothing adds nothing. -/
def mergeDiff (t : Tally) (diff : DiffSet) : Tally :=
  if diff.isEmpty then t
  else { t with results := { t.results with diffs := t.results.diffs.extend diff } }

/-- Add keys that could not be checked. -/
def addKeysWithError (t : Tally) (keys : List String) : Tally :=
  { t with
    results := { t.results with keysWithError := t.results.keysWithError ++ keys }
    errors := t.errors + UInt64.ofNat keys.length }

/-- Count keys as processed. -/
def recordProcessed (t : Tally) (count : UInt64) : Tally :=
  { t with processed := t.processed + count }

/-- Add one contribution. -/
def add (t : Tally) : Contribution → Tally
  | .unchecked keys => t.addKeysWithError keys
  | .processed count => t.recordProcessed count
  | .merged diff => t.mergeDiff diff

/-- Add contributions in order. -/
def addAll (t : Tally) (contributions : List Contribution) : Tally := contributions.foldl add t

end Tally

end ReplicaDiff
