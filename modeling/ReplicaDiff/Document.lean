/-
# ReplicaDiff.Document — what a bucket holds for a key
-/

namespace ReplicaDiff

set_option autoImplicit false

/-- A document of a bucket: its value and the metadata that takes part in comparison. -/
structure Document where
  value : List UInt8
  flags : UInt32
  datatype : UInt8
  cas : UInt64
deriving DecidableEq, Inhabited

/-- The two replicas of a run. -/
inductive Side where
  | source
  | target
deriving DecidableEq, Inhabited

/-- The name of a side in messages and logs. -/
def Side.name : Side → String
  | .source => "source"
  | .target => "target"

end ReplicaDiff
