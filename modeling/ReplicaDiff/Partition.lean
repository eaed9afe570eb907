/-
# ReplicaDiff.Partition — how the keys are shared out

A `Span` is a half-open interval of positions in the key list, with 64-bit ends.
`balanceLoad` gives each worker one span, the longer ones first, as long as there
can be a list of so many spans; `Span.batches` cuts a span into batches of one
size, the last of which may be shorter.
-/

namespace ReplicaDiff

set_option autoImplicit false

/-- The positions from `start` up to `stop`, without `stop`. -/
structure Span where
  start : UInt64
  stop : UInt64
deriving DecidableEq, Inhabited

namespace Span

/-- Whether the span has no position. -/
def isEmpty (s : Span) : Bool := s.stop ≤ s.start

/-- Number of positions. -/
def length (s : Span) : Nat := s.stop.toNat - s.start.toNat

/-- The entries of a list at the positions of the span. -/
def slice {α : Type} (s : Span) (items : List α) : List α :=
  (items.drop s.start.toNat).take s.length

/-- Whether the span can be cut out of a list of `n` entries: it does not go backwards and does not
pass the end. -/
def inBounds (s : Span) (n : Nat) : Bool := s.start ≤ s.stop ∧ s.stop.toNat ≤ n

/-- Number of batches of `size` positions that a span of this length takes. -/
def batchCount (s : Span) (size : UInt64) : Nat :=
  (s.length + (size.toNat - 1)) / size.toNat

/-- The batch that starts at `start`: `size` positions in 64-bit arithmetic, cut off at the end
of the span. -/
def batchAt (s : Span) (size start : UInt64) : Span :=
  ⟨start, min (start + size) s.stop⟩

/-- The span cut into batches of `size` positions; size zero is taken for one. -/
def batches (s : Span) (size : UInt64) : List Span :=
  let size := max size 1
  (List.range (s.batchCount size)).map fun i =>
    s.batchAt size (s.start + UInt64.ofNat i * size)

end Span

/-- One span for each worker, one after the other: the spans differ in length by at most one,
and the longer ones come first. -/
def evenShares (workers keys : UInt64) : List Span :=
  let base := keys / workers
  let extra := keys % workers
  let length (worker : UInt64) : UInt64 := base + if worker < extra then 1 else 0
  let rec lay (start : UInt64) : List Nat → List Span
    | [] => []
    | worker :: rest =>
        let stop := start + length (UInt64.ofNat worker)
        ⟨start, stop⟩ :: lay stop rest
  lay 0 (List.range workers.toNat)

/-- The most spans that there can be in one list: a span takes 16 bytes, and a block of memory has
fewer than 2 ^ 63. -/
def mostShares : UInt64 := 576460752303423487

/-- The shares of the workers.  The list is made room for before its first span is laid, and nobody
is told of it if there cannot be so many: whoever asked for the shares breaks off.  A list that there
can be is given, however much memory it takes. -/
def balanceLoad (workers keys : UInt64) : Option (List Span) :=
  if workers = 0 then some []
  else if mostShares < workers then none
  else some (evenShares workers keys)

end ReplicaDiff
