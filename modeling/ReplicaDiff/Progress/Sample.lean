/-
# ReplicaDiff.Progress.Sample — one reading of the counters of a run
-/
import ReplicaDiff.Duration

namespace ReplicaDiff.Progress

set_option autoImplicit false

/-- A span in seconds, as a double. -/
def seconds (d : Duration) : Float :=
  (UInt64.ofNat d.secs).toFloat + (UInt64.ofNat d.nanos).toFloat / 1e9

/-- The counters at one moment, and the keys processed per second since the last sample. -/
structure Sample where
  processed : UInt64
  errors : UInt64
  rate : Option Float

/-- The sample of a reading, given how many keys were processed at the one before. -/
def Sample.ofReading (processed errors : UInt64) (previous : Option UInt64) (interval : Duration) :
    Sample where
  processed := processed
  errors := errors
  rate := previous.map fun earlier =>
    (if earlier ≤ processed then processed - earlier else 0).toFloat / seconds interval

end ReplicaDiff.Progress
