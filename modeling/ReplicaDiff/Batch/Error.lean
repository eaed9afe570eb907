/-
# ReplicaDiff.Batch.Error — why a round of fetches failed
-/

namespace ReplicaDiff.Batch

set_option autoImplicit false

/-- Why a round of fetches did not bring an answer for every slot. -/
inductive Error where
  /-- The deadline passed. -/
  | timeout (batchSize timeoutSecs pendingSource pendingTarget : Nat)
  /-- Every fetch has ended, and some of them without an answer. -/
  | channelClosed (pending : Nat)
deriving DecidableEq

/-- The text of a failed round. -/
def Error.message : Error → String
  | .timeout batchSize timeoutSecs pendingSource pendingTarget =>
      "batch of " ++ toString batchSize ++ " keys timed out after " ++ toString timeoutSecs ++
        "s (" ++ toString pendingSource ++ " source and " ++ toString pendingTarget ++
        " target fetches outstanding)"
  | .channelClosed pending =>
      "fetch result channel closed with " ++ toString pending ++ " fetches outstanding"

end ReplicaDiff.Batch
