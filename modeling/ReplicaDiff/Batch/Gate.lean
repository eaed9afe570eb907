/-
# ReplicaDiff.Batch.Gate — the slots of one round of fetches

A round fetches every key of a batch from both sides.  Each fetch has a slot of
its own, told apart by side and position, so that repeated keys do not share
one.  The gate opens when every slot of both sides has an answer; it counts the
slots that are still without one.
-/
import ReplicaDiff.Fetch

namespace ReplicaDiff.Batch

set_option autoImplicit false

/-- The answer of one fetch, with the slot that it is for. -/
structure Completion where
  side : Side
  slot : Nat
  outcome : Outcome
deriving DecidableEq

/-- The results of a round, one for each key and side, in the order of the keys. -/
structure Results where
  source : List SideResult
  target : List SideResult
deriving DecidableEq

/-- The slots of both sides, and how many of each side are without an answer. -/
structure Gate where
  source : List SideResult
  target : List SideResult
  pendingSource : Nat
  pendingTarget : Nat
deriving DecidableEq

namespace Gate

/-- The gate of a round that has just begun. -/
def ofKeys (keys : List String) : Gate where
  source := keys.map SideResult.pending
  target := keys.map SideResult.pending
  pendingSource := keys.length
  pendingTarget := keys.length

/-- Whether no slot is without an answer. -/
def isOpen (g : Gate) : Bool := g.pendingSource = 0 && g.pendingTarget = 0

/-- Fill one slot of a list, and count it if it was empty.  A position outside the list changes
nothing. -/
def fill (slots : List SideResult) (pending slot : Nat) (outcome : Outcome) :
    List SideResult × Nat :=
  match slots[slot]? with
  | none => (slots, pending)
  | some held =>
      (slots.set slot { held with outcome := some outcome },
        if held.isComplete then pending else pending - 1)

/-- The gate after one more answer. -/
def record (g : Gate) (c : Completion) : Gate :=
  match c.side with
  | .source =>
      let (source, pendingSource) := fill g.source g.pendingSource c.slot c.outcome
      { g with source, pendingSource }
  | .target =>
      let (target, pendingTarget) := fill g.target g.pendingTarget c.slot c.outcome
      { g with target, pendingTarget }

/-- The gate after several answers, in order. -/
def recordAll (g : Gate) (cs : List Completion) : Gate := cs.foldl record g

/-- The results that the slots hold. -/
def results (g : Gate) : Results := ⟨g.source, g.target⟩

end Gate

end ReplicaDiff.Batch
