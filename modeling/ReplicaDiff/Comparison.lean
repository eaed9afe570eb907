/-
# ReplicaDiff.Comparison — how the two sides of a key compare

Two answers are classified when each is a document or says that the key is
absent.  A pending side, and a side that failed for another reason, leaves the
key undecided.
-/
import ReplicaDiff.Fetch

namespace ReplicaDiff

set_option autoImplicit false

/-- The verdict on a key that could be checked. -/
inductive Classification where
  | missingFromSource (target : Document)
  | missingFromTarget (source : Document)
  | mismatch (source target : Document)
  | agreement
deriving DecidableEq

/-- Documents are equal when their value, flags, datatype and cas are. -/
def Document.agrees (source target : Document) : Bool :=
  source.value = target.value && source.flags = target.flags &&
    source.datatype = target.datatype && source.cas = target.cas

/-- The verdict on two outcomes, if they allow one. -/
def compareOutcomes : Outcome → Outcome → Option Classification
  | .ok source, .ok target =>
      some (if source.agrees target then .agreement else .mismatch source target)
  | .error reason, .ok target =>
      if reason.isNotFound then some (.missingFromSource target) else none
  | .ok source, .error reason =>
      if reason.isNotFound then some (.missingFromTarget source) else none
  | .error reason, .error reason' =>
      if reason.isNotFound && reason'.isNotFound then some .agreement else none

/-- The verdict on a key, from the results of both sides. -/
def compare (source target : SideResult) : Option Classification :=
  match source.outcome, target.outcome with
  | some s, some t => compareOutcomes s t
  | _, _ => none

end ReplicaDiff
