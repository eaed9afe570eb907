/-
# ReplicaDiff.DiffSet — the differing keys of a run

One map for each kind of difference.  Recording a classification touches the map
of its kind alone, and an agreement touches none; a key may therefore stand in
several maps if several verdicts on it were recorded.
-/
import ReplicaDiff.Comparison
import ReplicaDiff.KeyMap

namespace ReplicaDiff

set_option autoImplicit false

/-- The documents of every differing key, by kind of difference. -/
structure DiffSet where
  mismatch : KeyMap (Document × Document)
  missingFromSource : KeyMap Document
  missingFromTarget : KeyMap Document
deriving DecidableEq, Inhabited

namespace DiffSet

/-- The set without keys. -/
def empty : DiffSet := ⟨.empty, .empty, .empty⟩

/-- The set with one more verdict: of two verdicts of one kind on a key the later counts. -/
def record (set : DiffSet) (key : String) : Classification → DiffSet
  | .missingFromSource target =>
      { set with missingFromSource := set.missingFromSource.insert key target }
  | .missingFromTarget source =>
      { set with missingFromTarget := set.missingFromTarget.insert key source }
  | .mismatch source target =>
      { set with mismatch := set.mismatch.insert key (source, target) }
  | .agreement => set

/-- The set with several verdicts, recorded in order. -/
def recordAll (set : DiffSet) (records : List (String × Classification)) : DiffSet :=
  records.foldl (fun acc r => acc.record r.1 r.2) set

/-- Both sets, where `other` wins on a key that both hold in the same map. -/
def extend (set other : DiffSet) : DiffSet where
  mismatch := set.mismatch.merge other.mismatch
  missingFromSource := set.missingFromSource.merge other.missingFromSource
  missingFromTarget := set.missingFromTarget.merge other.missingFromTarget

/-- Number of entries of the three maps. -/
def size (set : DiffSet) : Nat :=
  set.mismatch.size + set.missingFromSource.size + set.missingFromTarget.size

/-- Whether no map has an entry. -/
def isEmpty (set : DiffSet) : Bool := set.size = 0

/-- Whether one of the maps holds `key`. -/
def contains (set : DiffSet) (key : String) : Bool :=
  set.mismatch.contains key || set.missingFromSource.contains key ||
    set.missingFromTarget.contains key

/-- The keys of the three maps, once for each map that holds them. -/
def keys (set : DiffSet) : List String :=
  set.missingFromSource.keys ++ set.missingFromTarget.keys ++ set.mismatch.keys

end DiffSet

end ReplicaDiff
